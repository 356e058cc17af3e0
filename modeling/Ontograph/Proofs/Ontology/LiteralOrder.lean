import Mathlib.Data.List.Basic
import Ontograph.Ontology.Literal
import Ontograph.Proofs.Number.Rounding
import Ontograph.Proofs.Text.Bytes

/-!
# Literals in order

Literals are compared by kind and, within a kind, by value: integers as numbers, doubles by their bits,
texts by their bytes and truth values with falsehood first.  The bits of a double are compared as a signed
integer, after those that follow the sign were flipped if it is set.  This order extends the order of
values: it tells the two zeros apart, and it puts the NaNs, which have no value, at the two ends.

A literal is hashed by what it writes to a hasher, its kind and its value.  No two literals write the same
bytes.

Main statements: `Binary64.compare_orderKey`, `Literal.ordered_by_value` and `Literal.hashData_inj`.
-/

namespace Ontograph

/-! ## Doubles -/

namespace Binary64

/-- The bits as a signed integer, all but the sign flipped if it is set. -/
def orderKey (x : Binary64) : Int64 :=
  let bits := x.bits.toInt64
  bits ^^^ ((bits >>> 63).toUInt64 >>> 1).toInt64

/-- A shift by all places but one spreads the sign over all bits. -/
theorem getLsbD_sshiftRight_sign (b : BitVec 64) {i : Nat} (hi : i < 64) :
    (b.sshiftRight 63).getLsbD i = b.msb := by
  rw [BitVec.getLsbD_sshiftRight]
  by_cases first : i = 0
  · subst first
    simp [BitVec.msb_eq_getLsbD_last]
  · have far : ¬ 63 + i < 64 := by omega
    simp [far, hi]

theorem toBitVec_orderKey (x : Binary64) :
    x.orderKey.toBitVec =
      if x.negative then ~~~(BitVec.ofNat 64 x.magnitude) else BitVec.ofNat 64 x.magnitude := by
  have shifted : x.orderKey.toBitVec =
      x.bits.toBitVec ^^^ x.bits.toBitVec.sshiftRight 63 >>> 1 := rfl
  have sign : x.bits.toBitVec.msb = x.negative := BitVec.msb_eq_decide x.bits.toBitVec
  have last : x.bits.toBitVec.getLsbD 63 = x.negative :=
    (BitVec.msb_eq_getLsbD_last x.bits.toBitVec).symm.trans sign
  have low : ∀ i < 64, (BitVec.ofNat 64 x.magnitude).getLsbD i =
      (decide (i < 63) && x.bits.toBitVec.getLsbD i) := by
    intro i hi
    rw [BitVec.getLsbD_ofNat, decide_eq_true hi, Bool.true_and]
    exact Nat.testBit_mod_two_pow x.bits.toNat 63 i
  rw [shifted]
  generalize BitVec.ofNat 64 x.magnitude = m at low ⊢
  apply BitVec.eq_of_getLsbD_eq
  intro i hi
  have bit := low i hi
  have flipped : (~~~m).getLsbD i = !m.getLsbD i := by
    rw [BitVec.getLsbD_not, decide_eq_true hi, Bool.true_and]
  rw [BitVec.getLsbD_xor, BitVec.getLsbD_ushiftRight]
  by_cases below : i < 63
  · rw [decide_eq_true below, Bool.true_and] at bit
    rw [getLsbD_sshiftRight_sign _ (by omega), sign, ← bit]
    cases x.negative
    · exact Bool.xor_false _
    · exact (Bool.xor_true _).trans flipped.symm
  · -- The sign itself is kept.
    obtain rfl : i = 63 := by omega
    have above : (x.bits.toBitVec.sshiftRight 63).getLsbD 64 = false :=
      BitVec.getLsbD_of_ge _ _ (le_refl _)
    rw [decide_eq_false below, Bool.false_and] at bit
    rw [last, above, Bool.xor_false]
    cases x.negative
    · exact bit.symm
    · exact (flipped.trans (congrArg not bit)).symm

/-- The rank of a pattern is the integer that its bits are compared as. -/
theorem toInt_orderKey (x : Binary64) : x.orderKey.toInt = x.rank := by
  have bound := x.magnitude_lt
  rw [signBit] at bound
  rw [← Int64.toInt_toBitVec, toBitVec_orderKey, rank, BitVec.toInt_eq_toNat_cond]
  split
  · rw [BitVec.toNat_not, BitVec.toNat_ofNat]
    omega
  · rw [BitVec.toNat_ofNat]
    omega

/-- Doubles are compared by their bits. -/
theorem compare_orderKey (x y : Binary64) :
    compare x y = compare x.orderKey.toInt y.orderKey.toInt := by
  rw [toInt_orderKey, toInt_orderKey, compare_def]

/-- The value of a pattern, as far as it has one. -/
def value (x : Binary64) : ℚ :=
  if x.negative then -valueAt x.magnitude else valueAt x.magnitude

theorem compare_eq_lt {x y : Binary64} : compare x y = .lt ↔ x.rank < y.rank := by
  rw [compare_def]
  exact Int.compare_eq_lt

theorem valueAt_nonneg (n : ℕ) : 0 ≤ valueAt n :=
  mul_nonneg (Nat.cast_nonneg _) (zpow_pos' _).le

/-- A lesser value comes first. -/
theorem compare_of_value_lt {x y : Binary64} (h : x.value < y.value) : compare x y = .lt := by
  have hx := valueAt_nonneg x.magnitude
  have hy := valueAt_nonneg y.magnitude
  rw [compare_eq_lt]
  unfold value at h
  unfold rank
  split at h <;> split at h <;> rename_i negx negy
  · have := valueAt_strictMono.lt_iff_lt.1 (neg_lt_neg_iff.1 h)
    rw [if_pos negx, if_pos negy]
    omega
  · rw [if_pos negx, if_neg negy]
    omega
  · linarith
  · have := valueAt_strictMono.lt_iff_lt.1 h
    rw [if_neg negx, if_neg negy]
    omega

/-- The negative zero comes before the positive one. -/
theorem compare_zeros {x y : Binary64} (hx : x.isZero = true) (hy : y.isZero = true)
    (negative : x.negative = true) (positive : y.negative = false) : compare x y = .lt := by
  rw [compare_eq_lt, rank, rank, of_decide_eq_true hx, of_decide_eq_true hy, negative, positive]
  decide

/-- A negative NaN comes before all that has a value, a positive one after it. -/
theorem compare_of_isNaN {x y : Binary64} (hx : x.isNaN = true) (hy : y.isNaN = false) :
    compare x y = if x.negative then .lt else .gt := by
  have above : infiniteMagnitude < x.magnitude := of_decide_eq_true hx
  have below : ¬ infiniteMagnitude < y.magnitude := of_decide_eq_false hy
  split
  · next negative =>
      rw [compare_eq_lt, rank, rank, if_pos negative]
      split <;> omega
  · next positive =>
      rw [Std.OrientedOrd.eq_swap, compare_eq_lt.2]
      · rfl
      · rw [rank, rank, if_neg positive]
        split <;> omega

end Binary64

/-! ## Values -/

namespace Literal

theorem compare_toInt (m n : Int64) : compare (integer m) (integer n) = compare m.toInt n.toInt := by
  have order : ∀ {m n : Int64}, compare m.toInt n.toInt = .lt → compare m n = .lt := fun h =>
    Std.compare_eq_lt.2 (Int64.lt_iff_toInt_lt.2 (Int.compare_eq_lt.1 h))
  rw [compare_def, cmp]
  cases h : compare m.toInt n.toInt with
  | lt => exact order h
  | eq =>
      obtain rfl := Int64.toInt_inj.1 (Std.LawfulEqOrd.eq_of_compare h)
      exact Std.ReflOrd.compare_self
  | gt => exact Std.OrientedCmp.gt_of_lt (order (Std.OrientedCmp.lt_of_gt h))

/-- How literals of one kind are compared, and literals of different kinds. -/
structure OrderedByValue : Prop where
  integers : ∀ m n, compare (integer m) (integer n) = compare m.toInt n.toInt
  /-- Doubles are compared by their bits, and so by their values if these differ. -/
  floats : ∀ x y, compare (float x) (float y) = compare x.orderKey.toInt y.orderKey.toInt
  values : ∀ x y : Binary64, x.value < y.value → compare (float x) (float y) = .lt
  zeros : ∀ x y : Binary64, x.isZero = true → y.isZero = true → x.negative = true →
    y.negative = false → compare (float x) (float y) = .lt
  nans : ∀ x y : Binary64, x.isNaN = true → y.isNaN = false →
    compare (float x) (float y) = if x.negative then .lt else .gt
  strings : ∀ s t, compare (string s) (string t) = compare (Text.bytes s) (Text.bytes t)
  booleans : ∀ a b, compare (boolean a) (boolean b) = compare a.toNat b.toNat
  kinds : ∀ a b : Literal, a.kind ≠ b.kind → compare a b = compare a.kind.index b.kind.index

theorem ordered_by_value : OrderedByValue := by
  constructor
  case integers => exact compare_toInt
  case floats => exact Binary64.compare_orderKey
  case values => exact fun x y => Binary64.compare_of_value_lt
  case zeros => exact fun x y => Binary64.compare_zeros
  case nans => exact fun x y => Binary64.compare_of_isNaN
  case strings => exact Text.compare_bytes
  case booleans => decide
  case kinds =>
    intro a b other
    cases a <;> cases b <;> first | rfl | exact absurd rfl other

end Literal

/-! ## Hashing -/

theorem LiteralKind.eq_of_index {k l : LiteralKind} (h : UInt64.ofNat k.index = .ofNat l.index) :
    k = l := by
  cases k <;> cases l <;> first | rfl | exact absurd h (by decide)

/-- What is written to a hasher at a time. -/
inductive HashWrite where
  | word (w : UInt64)
  | text (s : String)
  | truth (b : Bool)

namespace HashWrite

/-- The bytes of a word, the lowest first. -/
def wordBytes (w : UInt64) : List UInt8 :=
  (List.range 8).map fun i => .ofNat (w.toNat / 256 ^ i)

/-- The bytes that are written.  A text ends with a byte that is in no text. -/
def bytes : HashWrite → List UInt8
  | word w => wordBytes w
  | text s => Text.bytes s ++ [0xff]
  | truth b => [if b then 1 else 0]

theorem wordBytes_injective {v w : UInt64} (h : wordBytes v = wordBytes w) : v = w := by
  have digit : ∀ i < 8, v.toNat / 256 ^ i % 256 = w.toNat / 256 ^ i % 256 := by
    intro i hi
    have same := congrArg UInt8.toNat (List.map_inj_left.1 h i (List.mem_range.2 hi))
    rwa [UInt8.toNat_ofNat', UInt8.toNat_ofNat'] at same
  -- A number is read off its digits one after the other.
  have rest : ∀ i ≤ 8, v.toNat % 256 ^ i = w.toNat % 256 ^ i := by
    intro i hi
    induction i with
    | zero => rw [pow_zero, Nat.mod_one, Nat.mod_one]
    | succ i ih => rw [Nat.mod_pow_succ, Nat.mod_pow_succ, ih (by omega), digit i (by omega)]
  have same : v.toNat % 2 ^ 64 = w.toNat % 2 ^ 64 := rest 8 (le_refl 8)
  rw [Nat.mod_eq_of_lt v.toNat_lt, Nat.mod_eq_of_lt w.toNat_lt] at same
  exact UInt64.toNat_inj.1 same

end HashWrite

namespace Literal

/-- The value of a literal as it is written to a hasher; a double is written as its bits. -/
def hashedValue : Literal → HashWrite
  | integer n => .word n.toUInt64
  | float x => .word x.bits
  | string s => .text s
  | boolean b => .truth b

/-- What a literal writes to a hasher. -/
def hashWrites (value : Literal) : List HashWrite :=
  [.word (.ofNat value.kind.index), value.hashedValue]

/-- The bytes that a literal writes to a hasher. -/
def hashData (value : Literal) : List UInt8 :=
  value.hashWrites.flatMap HashWrite.bytes

theorem hashData_eq (value : Literal) : value.hashData =
    HashWrite.wordBytes (.ofNat value.kind.index) ++ value.hashedValue.bytes := by
  simp [hashData, hashWrites, HashWrite.bytes]

/-- Literals of one kind are told apart by the bytes of their values. -/
theorem eq_of_hashedValue {a b : Literal} (kinds : a.kind = b.kind)
    (values : a.hashedValue.bytes = b.hashedValue.bytes) : a = b := by
  cases a <;> cases b <;> try cases kinds
  case integer.integer m n =>
    have same := HashWrite.wordBytes_injective values
    rw [← Int64.toInt64_toUInt64 m, ← n.toInt64_toUInt64, same]
  case float.float x y =>
    have same : x.bits = y.bits := HashWrite.wordBytes_injective values
    exact congrArg (fun bits => float ⟨bits⟩) same
  case string.string s t => rw [Text.bytes_injective (List.append_cancel_right values)]
  case boolean.boolean a b =>
    cases a <;> cases b <;> first | rfl | exact absurd values (by decide)

/-- Literals are equal exactly if they write the same bytes. -/
theorem hashData_inj {a b : Literal} : a.hashData = b.hashData ↔ a = b := by
  refine ⟨fun h => ?_, fun h => h ▸ rfl⟩
  rw [hashData_eq, hashData_eq] at h
  obtain ⟨kinds, values⟩ := List.append_inj h rfl
  exact eq_of_hashedValue (LiteralKind.eq_of_index (HashWrite.wordBytes_injective kinds)) values

end Literal

end Ontograph
