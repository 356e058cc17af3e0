/-!
# Double-precision numbers

A `Binary64` is the bit pattern of an IEEE 754 double.  Its sign is the top bit; the other bits, read
as a natural number, are its magnitude, which grows with the value.  The module gives the value of a
pattern as `significand · 2 ^ exponent`, the total order of all patterns, equality of values, and
correctly rounded quotients, products and integers.

Main statements: `compare` is a lawful linear order on patterns (instances `Std.TransOrd`,
`Std.LawfulEqOrd`), in which NaNs with their sign are the two ends.
-/

namespace Ontograph

/-- A double-precision number, by its bits. -/
structure Binary64 where
  bits : UInt64
deriving DecidableEq

namespace Binary64

/-! ## Parts of a pattern -/

/-- The sign bit, `2 ^ 63`. -/
def signBit : Nat := 0x8000000000000000

/-- The unit that the integer part of a normal number begins with, `2 ^ 52`. -/
def leadingUnit : Nat := 0x10000000000000

/-- Whether the sign bit is set. -/
def negative (x : Binary64) : Bool :=
  signBit ≤ x.bits.toNat

/-- All bits but the sign. -/
def magnitude (x : Binary64) : Nat :=
  x.bits.toNat % signBit

/-- The pattern with the given sign and magnitude. -/
def ofMagnitude (negative : Bool) (magnitude : Nat) : Binary64 :=
  ⟨UInt64.ofNat (magnitude % signBit + if negative then signBit else 0)⟩

/-- The magnitude of the infinities; larger ones belong to NaNs. -/
def infiniteMagnitude : Nat := 0x7ff0000000000000

/-- The same pattern with the other sign. -/
def neg (x : Binary64) : Binary64 :=
  ofMagnitude (!x.negative) x.magnitude

/-- Whether the pattern stands for a number. -/
def isFinite (x : Binary64) : Bool :=
  x.magnitude < infiniteMagnitude

/-- Whether the pattern stands for no value at all. -/
def isNaN (x : Binary64) : Bool :=
  infiniteMagnitude < x.magnitude

/-- Whether the pattern is one of the two zeros. -/
def isZero (x : Binary64) : Bool :=
  x.magnitude = 0

/-- The positive infinity. -/
def infinity : Binary64 := ofMagnitude false infiniteMagnitude

/-- The NaN that a text names: the quiet one without a payload. -/
def nan : Binary64 := ofMagnitude false 0x7ff8000000000000

/-- The positive zero. -/
def zero : Binary64 := ofMagnitude false 0

/-- The integer part of the value, in units of `2 ^ exponent`. -/
def significand (x : Binary64) : Nat :=
  if x.magnitude < leadingUnit then x.magnitude else x.magnitude % leadingUnit + leadingUnit

/-- The exponent of the last place: a finite pattern has the absolute value
`significand · 2 ^ exponent`. -/
def exponent (x : Binary64) : Int :=
  max (x.magnitude / leadingUnit : Nat) 1 - 1075

/-- The absolute value of a finite pattern as a quotient. -/
def ratio (x : Binary64) : Nat × Nat :=
  if 0 ≤ x.exponent then (x.significand <<< x.exponent.toNat, 1)
  else (x.significand, 1 <<< (-x.exponent).toNat)

/-! ## Order -/

/-- The place of a pattern in the total order: negative patterns come first, those of larger
magnitude before those of smaller, and then the positive ones by magnitude. -/
def rank (x : Binary64) : Int :=
  if x.negative then -(x.magnitude : Int) - 1 else x.magnitude

theorem magnitude_lt (x : Binary64) : x.magnitude < signBit :=
  Nat.mod_lt _ (by decide)

theorem toNat_bits (x : Binary64) :
    x.bits.toNat = x.magnitude + if x.negative then signBit else 0 := by
  have h := x.bits.toNat_lt
  unfold magnitude negative signBit
  by_cases hn : 0x8000000000000000 ≤ x.bits.toNat
  · rw [if_pos (decide_eq_true hn)]
    omega
  · rw [if_neg (fun h => hn (of_decide_eq_true h))]
    omega

theorem rank_injective {x y : Binary64} (h : x.rank = y.rank) : x = y := by
  have hx := x.toNat_bits
  have hy := y.toNat_bits
  have hm : x.negative = y.negative ∧ x.magnitude = y.magnitude := by
    unfold rank at h
    split at h <;> split at h
    case isTrue.isTrue hnx hny => exact ⟨hnx.trans hny.symm, by omega⟩
    case isFalse.isFalse hnx hny =>
      exact ⟨((Bool.not_eq_true _).mp hnx).trans ((Bool.not_eq_true _).mp hny).symm, by omega⟩
    all_goals omega
  rw [hm.1, hm.2] at hx
  have : x.bits.toNat = y.bits.toNat := hx.trans hy.symm
  cases x; cases y
  simpa [← UInt64.toNat_inj] using this

instance : Ord Binary64 where
  compare x y := compare x.rank y.rank

theorem compare_def (x y : Binary64) : compare x y = compare x.rank y.rank := rfl

instance : Std.TransOrd Binary64 where
  eq_swap {x y} := (Std.OrientedOrd.eq_swap : compare x.rank y.rank = (compare y.rank x.rank).swap)
  isLE_trans {x _ z} hxy hyz :=
    (Std.TransOrd.isLE_trans hxy hyz : (compare x.rank z.rank).isLE)

instance : Std.LawfulEqOrd Binary64 where
  eq_of_compare {x y} h :=
    rank_injective (Std.LawfulEqOrd.eq_of_compare (h : compare x.rank y.rank = .eq))

/-- Equality of values: the two zeros are one value, and a NaN equals nothing. -/
def sameValue (x y : Binary64) : Bool :=
  !x.isNaN && !y.isNaN && (x = y || (x.isZero && y.isZero))

/-! ## Rounded arithmetic -/

/-- `num / den` to the nearest natural number, a half to the even one. -/
def roundHalfEven (num den : Nat) : Nat :=
  let floor := num / den
  let rest := num % den
  if 2 * rest < den then floor
  else if den < 2 * rest then floor + 1
  else floor + floor % 2

/-- The greatest `k` with `2 ^ k ≤ num / den`, for positive operands. -/
def floorLog2 (num den : Nat) : Int :=
  let k : Int := (num.log2 : Int) - den.log2
  let reaches := if 0 ≤ k then den <<< k.toNat ≤ num else den ≤ num <<< (-k).toNat
  if reaches then k else k - 1

/-- The double nearest to `num / den`, a tie to the even pattern; what is too large is infinite.
The magnitude is `(e + 1074) · 2 ^ 52 + m` for a value of `m` units of `2 ^ e`, whether or not
rounding carried `m` up to the next power of two. -/
def ofRatio (num den : Nat) : Binary64 :=
  if num = 0 then zero
  else
    let unit : Int := max (floorLog2 num den - 52) (-1074)
    let count :=
      if 0 ≤ unit then roundHalfEven num (den <<< unit.toNat)
      else roundHalfEven (num <<< (-unit).toNat) den
    ofMagnitude false (min ((unit + 1074).toNat * leadingUnit + count) infiniteMagnitude)

/-- The double nearest to a natural number. -/
def ofNat (n : Nat) : Binary64 :=
  ofRatio n 1

/-- The rounded product of two finite doubles without sign. -/
def mul (x y : Binary64) : Binary64 :=
  ofRatio (x.ratio.1 * y.ratio.1) (x.ratio.2 * y.ratio.2)

/-- The rounded quotient of two finite doubles without sign, the second one not zero. -/
def div (x y : Binary64) : Binary64 :=
  ofRatio (x.ratio.1 * y.ratio.2) (x.ratio.2 * y.ratio.1)

end Binary64

end Ontograph
