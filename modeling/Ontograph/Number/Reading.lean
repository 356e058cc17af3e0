import Ontograph.Number.Binary64
import Ontograph.Number.Decimal

/-!
# Reading decimals

Two ways from a written decimal to a double.  A numeral of a JSON text is read in steps that each
round: its digits first, as far as a 64-bit word can hold them, then the scaling by a power of ten; a
numeral whose value leaves the range of finite doubles has no value.  A text that names a double by
itself (`Binary64.ofText?`) is rounded once, from its exact value, and may also be an infinity or a
NaN.
-/

namespace Ontograph

/-- The double nearest to `10 ^ n`. -/
def Binary64.pow10 (n : Nat) : Binary64 :=
  ofNat (tenTo n)

/-! ## Numerals in steps -/

namespace Numeral

/-- Adds digits to a whole part as long as it fits into 64 bits, and counts the digits that are left
over. -/
def takeWhole : Nat → List Digit → Nat × Nat
  | n, [] => (n, 0)
  | n, d :: rest =>
      if 10 * n + d.val < UInt64.size then takeWhole (10 * n + d.val) rest else (n, rest.length + 1)

/-- Adds digits of a fraction as long as the number fits into 64 bits, and counts them. -/
def takeFraction : Nat → List Digit → Nat × Nat
  | n, [] => (n, 0)
  | n, d :: rest =>
      if 10 * n + d.val < UInt64.size then
        let (m, count) := takeFraction (10 * n + d.val) rest
        (m, count + 1)
      else (n, 0)

/-- Divides by `10 ^ n`, at most by `10 ^ 308` in one step, until nothing is left to divide. -/
def scaleDown (x : Binary64) (n : Nat) : Binary64 :=
  if n ≤ 308 then x.div (Binary64.pow10 n)
  else if x.isZero then x
  else scaleDown (x.div (Binary64.pow10 308)) (n - 308)
termination_by n

/-- Multiplies by `10 ^ e`; there is no result beyond the finite doubles. -/
def scale (x : Binary64) (e : Int) : Option Binary64 :=
  if e < 0 then some (scaleDown x (-e).toNat)
  else if e ≤ 308 then
    let y := x.mul (Binary64.pow10 e.toNat)
    if y.isFinite then some y else none
  else if x.isZero then some x
  else none

/-- The double that a numeral stands for, unless it is out of range. -/
def toBinary64? (n : Numeral) : Option Binary64 :=
  let (whole, dropped) := takeWhole 0 n.whole
  let (digits, taken) := takeFraction whole n.fraction
  let x := scale (Binary64.ofNat digits) ((dropped : Int) - taken + n.exponent.getD 0)
  if n.negative then x.map Binary64.neg else x

/-- The integer that a numeral stands for: one without fraction and exponent, not the negative zero,
and within the range of signed or unsigned 64-bit words.  All other numerals stand for doubles
only. -/
def toInt? (n : Numeral) : Option Int :=
  let value := Digit.value n.whole
  if n.fraction.isEmpty && n.exponent.isNone then
    if n.negative then
      if 0 < value && Int64.minValue.toInt ≤ -(value : Int) then some (-(value : Int)) else none
    else if value < UInt64.size then some value
    else none
  else none

end Numeral

/-! ## Texts of doubles -/

namespace Binary64

/-- The double nearest to `digits · 10 ^ e`.  Numbers beyond `10 ^ 310` are infinite, those below
`10 ^ -330` zero, which spares their powers of ten. -/
def ofDecimal (digits : Nat) (e : Int) : Binary64 :=
  let size := e + (Digit.ofNat digits).length
  if digits = 0 || size < -330 then zero
  else if 310 < size then infinity
  else if 0 ≤ e then ofNat (digits * tenTo e.toNat)
  else ofRatio digits (tenTo (-e).toNat)

/-- A double without sign: the name of an infinity or a NaN in any case, or digits with an optional
point among them and an optional exponent. -/
def ofUnsignedText? (text : List Char) : Option Binary64 :=
  match String.ofList (text.map Char.toLower) with
  | "inf" => some infinity
  | "infinity" => some infinity
  | "nan" => some nan
  | _ =>
      let (whole, rest) := Digit.span text
      let (fraction, rest) := match rest with
        | '.' :: tail => Digit.span tail
        | tail => ([], tail)
      if whole.isEmpty && fraction.isEmpty then none
      else (Numeral.exponentPart? rest).map fun e =>
        ofDecimal (Digit.value (whole ++ fraction)) (e.getD 0 - fraction.length)

/-- The double that a text names, with an optional sign. -/
def ofText? (text : String) : Option Binary64 :=
  match text.toList with
  | '-' :: rest => (ofUnsignedText? rest).map neg
  | '+' :: rest => ofUnsignedText? rest
  | chars => ofUnsignedText? chars

/-- The double nearest to an integer. -/
def ofInt (n : Int) : Binary64 :=
  if n < 0 then (ofNat n.natAbs).neg else ofNat n.natAbs

end Binary64

end Ontograph
