import Mathlib.Algebra.Order.Field.Power
import Mathlib.Data.Rat.Cast.Order
import Mathlib.Tactic.Linarith
import Mathlib.Tactic.NormNum
import Mathlib.Tactic.Positivity
import Mathlib.Tactic.Ring
import Ontograph.Number.Shortest

/-!
# Which numbers round to a double

The values of doubles grow with the magnitude, by one unit of the last place at each step.  The numbers
that round to a double reach half-way to its neighbours, and the two ends belong to the double with the
even magnitude.  So no number rounds to two doubles.

Main statements: `valueAt_succ`, `half_strictMono`, `Rounds.eq` (a number rounds to one double) and
`Shortest.contains_iff` (the interval of a double holds the numbers that round to it).
-/

namespace Ontograph

/-! ## Powers as quotients -/

/-- A power with an integer exponent as a quotient of natural numbers. -/
theorem ratio_zpow {b : ℕ} (hb : 0 < b) (k : ℤ) :
    ((if 0 ≤ k then b ^ k.toNat else 1 : ℕ) : ℚ) / ((if 0 ≤ k then 1 else b ^ (-k).toNat : ℕ) : ℚ) =
      (b : ℚ) ^ k := by
  have nonzero : (b : ℚ) ≠ 0 := by positivity
  split
  · next nonneg =>
      obtain ⟨n, rfl⟩ := Int.eq_ofNat_of_zero_le nonneg
      simp
  · next negative =>
      obtain ⟨n, hn⟩ := Int.eq_ofNat_of_zero_le (a := -k) (by omega)
      obtain rfl : k = -n := by omega
      simp

/-- Whether a quotient reaches a power, decided in natural numbers. -/
theorem reaches_iff {b : ℕ} (hb : 0 < b) (num : ℕ) {den : ℕ} (hden : 0 < den) (k : ℤ) :
    (if 0 ≤ k then den * b ^ k.toNat ≤ num else den ≤ num * b ^ (-k).toNat) ↔
      (b : ℚ) ^ k ≤ num / den := by
  have positive : (0 : ℚ) < den := by exact_mod_cast hden
  rw [le_div_iff₀ positive]
  split
  · next nonneg =>
      obtain ⟨n, rfl⟩ := Int.eq_ofNat_of_zero_le nonneg
      rw [zpow_natCast, mul_comm, Int.toNat_natCast]
      exact_mod_cast Iff.rfl
  · next negative =>
      obtain ⟨n, hn⟩ := Int.eq_ofNat_of_zero_le (a := -k) (by omega)
      obtain rfl : k = -n := by omega
      have power : (0 : ℚ) < (b : ℚ) ^ n := by positivity
      rw [zpow_neg, zpow_natCast, inv_mul_le_iff₀ power, neg_neg, Int.toNat_natCast, mul_comm]
      exact_mod_cast Iff.rfl

namespace Binary64

/-! ## Values -/

/-- The significand of a magnitude. -/
def sig (n : ℕ) : ℕ :=
  if n < leadingUnit then n else n % leadingUnit + leadingUnit

/-- The exponent of the last place of a magnitude. -/
def expo (n : ℕ) : ℤ :=
  max (n / leadingUnit : ℕ) 1 - 1075

/-- The value of a magnitude. -/
def valueAt (n : ℕ) : ℚ :=
  sig n * 2 ^ expo n

theorem significand_eq (x : Binary64) : x.significand = sig x.magnitude := rfl

theorem exponent_eq (x : Binary64) : x.exponent = expo x.magnitude := rfl

/-- The next magnitude has the next significand, or begins the next binade. -/
theorem succ_cases (n : ℕ) :
    (sig (n + 1) = sig n + 1 ∧ expo (n + 1) = expo n ∧
      ¬ (sig (n + 1) = leadingUnit ∧ 2 * leadingUnit ≤ n + 1)) ∨
    (sig n + 1 = 2 * leadingUnit ∧ sig (n + 1) = leadingUnit ∧ expo (n + 1) = expo n + 1 ∧
      2 * leadingUnit ≤ n + 1) := by
  unfold sig expo leadingUnit
  split <;> split <;> omega

theorem valueAt_succ (n : ℕ) : valueAt (n + 1) = valueAt n + 2 ^ expo n := by
  unfold valueAt
  rcases succ_cases n with ⟨next, same, -⟩ | ⟨full, first, up, -⟩
  · rw [next, same]
    push_cast
    ring
  · have whole : (sig n : ℚ) + 1 = 2 * leadingUnit := by exact_mod_cast full
    rw [first, up, zpow_add_one₀ two_ne_zero]
    calc (leadingUnit : ℚ) * (2 ^ expo n * 2) = 2 * leadingUnit * 2 ^ expo n := by ring
      _ = (sig n + 1) * 2 ^ expo n := by rw [whole]
      _ = sig n * 2 ^ expo n + 2 ^ expo n := by ring

theorem zpow_pos' (k : ℤ) : (0 : ℚ) < 2 ^ k :=
  zpow_pos two_pos k

theorem valueAt_strictMono : StrictMono valueAt := by
  refine strictMono_nat_of_lt_succ fun n => ?_
  rw [valueAt_succ]
  linarith [zpow_pos' (expo n)]

/-! ## Half-way points -/

/-- The point half-way between a value and the next one. -/
def half (n : ℕ) : ℚ :=
  valueAt n + 2 ^ expo n / 2

theorem valueAt_lt_half (n : ℕ) : valueAt n < half n := by
  unfold half
  linarith [zpow_pos' (expo n)]

theorem half_lt_valueAt (n : ℕ) : half n < valueAt (n + 1) := by
  rw [valueAt_succ]
  unfold half
  linarith [zpow_pos' (expo n)]

theorem half_strictMono : StrictMono half :=
  strictMono_nat_of_lt_succ fun n => (half_lt_valueAt n).trans (valueAt_lt_half (n + 1))

theorem sig_lt (n : ℕ) : sig n < 2 * leadingUnit := by
  unfold sig leadingUnit
  split <;> omega

/-- The numbers that round to a double are so many that sixteen digits after the first one of its value
make out two of them. -/
theorem valueAt_lt_width {n : ℕ} (hn : 0 < n) :
    valueAt n < 10 ^ 16 * (half n - half (n - 1)) := by
  obtain ⟨n, rfl⟩ : ∃ m, n = m + 1 := ⟨n - 1, by omega⟩
  have unit := zpow_pos' (expo n)
  have small : (sig (n + 1) : ℚ) < 2 * leadingUnit := by exact_mod_cast sig_lt (n + 1)
  have width : half (n + 1) - half n = 2 ^ expo n / 2 + 2 ^ expo (n + 1) / 2 := by
    unfold half
    rw [valueAt_succ]
    ring
  rw [Nat.add_sub_cancel, width, valueAt]
  rcases succ_cases n with ⟨-, level, -⟩ | ⟨-, first, up, -⟩
  · rw [level]
    calc (sig (n + 1) : ℚ) * 2 ^ expo n < 2 * leadingUnit * 2 ^ expo n :=
          mul_lt_mul_of_pos_right small unit
      _ < 10 ^ 16 * (2 ^ expo n / 2 + 2 ^ expo n / 2) := by
          unfold leadingUnit
          push_cast
          linarith
  · rw [first, up, zpow_add_one₀ two_ne_zero]
    unfold leadingUnit
    push_cast
    linarith

/-- The values of finite doubles that are not zero. -/
theorem valueAt_bounds {n : ℕ} (hn : 0 < n) (finite : n < infiniteMagnitude) :
    (2 : ℚ) ^ (-1074 : ℤ) ≤ valueAt n ∧ valueAt n < 2 ^ (1024 : ℤ) := by
  have least : valueAt 1 = 2 ^ (-1074 : ℤ) := by
    show ((1 : ℕ) : ℚ) * 2 ^ (-1074 : ℤ) = _
    rw [Nat.cast_one, one_mul]
  have most : valueAt infiniteMagnitude = 2 ^ (1024 : ℤ) := by
    show ((2 ^ 52 : ℕ) : ℚ) * 2 ^ (972 : ℤ) = _
    rw [Nat.cast_pow, Nat.cast_ofNat, ← zpow_natCast, ← zpow_add₀ two_ne_zero]
    rfl
  constructor
  · rw [← least]
    exact valueAt_strictMono.monotone hn
  · rw [← most]
    exact valueAt_strictMono finite

/-- A number rounds to the double with the given magnitude, which is not zero. -/
def Rounds (n : ℕ) (r : ℚ) : Prop :=
  if n % 2 = 0 then half (n - 1) ≤ r ∧ r ≤ half n else half (n - 1) < r ∧ r < half n

theorem Rounds.le {n : ℕ} {r : ℚ} (h : Rounds n r) : half (n - 1) ≤ r ∧ r ≤ half n := by
  unfold Rounds at h
  split at h
  · exact h
  · exact ⟨h.1.le, h.2.le⟩

theorem Rounds.odd {n : ℕ} {r : ℚ} (h : Rounds n r) (odd : n % 2 = 1) :
    half (n - 1) < r ∧ r < half n := by
  unfold Rounds at h
  rwa [if_neg (by omega)] at h

theorem rounds_of_lt {n : ℕ} {r : ℚ} (low : half (n - 1) < r) (high : r < half n) : Rounds n r := by
  unfold Rounds
  split
  · exact ⟨low.le, high.le⟩
  · exact ⟨low, high⟩

/-- A number does not round to a double and to a larger one. -/
theorem Rounds.not_lt {m n : ℕ} {r : ℚ} (hm : Rounds m r) (hn : Rounds n r) : ¬ m < n := by
  intro less
  have between : half m ≤ half (n - 1) := half_strictMono.monotone (by omega)
  have upper := hm.le.2
  have lower := hn.le.1
  -- The number is half-way between two neighbours, of which only one is even.
  obtain rfl : n = m + 1 := by
    by_contra apart
    have strict : half m < half (n - 1) := half_strictMono (by omega)
    linarith
  rcases Nat.mod_two_eq_zero_or_one m with even | odd
  · have strict := (hn.odd (by omega)).1
    rw [Nat.add_sub_cancel] at strict
    linarith
  · have strict := (hm.odd odd).2
    rw [Nat.add_sub_cancel] at lower
    linarith

/-- A number rounds to one double. -/
theorem Rounds.eq {m n : ℕ} {r : ℚ} (hm : Rounds m r) (hn : Rounds n r) : m = n :=
  Nat.le_antisymm (Nat.not_lt.1 (hn.not_lt hm)) (Nat.not_lt.1 (hm.not_lt hn))

end Binary64

namespace Shortest

open Binary64

/-! ## Intervals -/

variable {x : Binary64}

theorem denominator_pos (x : Binary64) : 0 < (interval x).denominator := by
  unfold interval
  simp only
  split
  · exact Nat.one_pos
  · rw [Nat.one_shiftLeft]
    exact Nat.two_pow_pos _

/-- A number of quarters of the last place, as a quotient. -/
theorem quarters (x : Binary64) (n : ℕ) :
    ((n * (if 0 ≤ x.exponent - 2 then 1 <<< (x.exponent - 2).toNat else 1) : ℕ) : ℚ) /
      (interval x).denominator = n * 2 ^ expo x.magnitude / 4 := by
  have ratio := ratio_zpow two_pos (x.exponent - 2)
  have fourth : (2 : ℚ) ^ (x.exponent - 2) = 2 ^ expo x.magnitude / 4 := by
    rw [zpow_sub₀ two_ne_zero, exponent_eq]
    norm_num
  unfold interval
  simp only [Nat.one_shiftLeft]
  rw [Nat.cast_mul, mul_div_assoc, ratio, Nat.cast_two, fourth, mul_div_assoc]

theorem value_eq (x : Binary64) :
    ((interval x).value : ℚ) / (interval x).denominator = valueAt x.magnitude := by
  have units := quarters x (4 * x.significand)
  have same : (interval x).value = 4 * x.significand *
      (if 0 ≤ x.exponent - 2 then 1 <<< (x.exponent - 2).toNat else 1) := rfl
  rw [same, units, significand_eq, valueAt]
  push_cast
  ring

theorem high_eq (x : Binary64) :
    ((interval x).high : ℚ) / (interval x).denominator = half x.magnitude := by
  have units := quarters x (4 * x.significand + 2)
  have same : (interval x).high = (4 * x.significand + 2) *
      (if 0 ≤ x.exponent - 2 then 1 <<< (x.exponent - 2).toNat else 1) := rfl
  rw [same, units, significand_eq, half, valueAt]
  push_cast
  ring

theorem low_eq (hx : 0 < x.magnitude) :
    ((interval x).low : ℚ) / (interval x).denominator = half (x.magnitude - 1) := by
  obtain ⟨n, hn⟩ : ∃ n, x.magnitude = n + 1 := ⟨x.magnitude - 1, by omega⟩
  have before : half n = valueAt (n + 1) - 2 ^ expo n / 2 := by
    rw [valueAt_succ]
    unfold half
    ring
  have same : (interval x).low = (4 * x.significand -
      if x.significand = leadingUnit ∧ 2 * leadingUnit ≤ x.magnitude then 1 else 2) *
      (if 0 ≤ x.exponent - 2 then 1 <<< (x.exponent - 2).toNat else 1) := rfl
  rw [same, quarters, significand_eq, hn, Nat.add_sub_cancel, before, valueAt]
  rcases succ_cases n with ⟨next, level, inside⟩ | ⟨full, first, up, power⟩
  · rw [if_neg inside, Nat.cast_sub (by omega), level]
    push_cast
    ring
  · have some : 1 ≤ 4 * leadingUnit := by decide
    rw [if_pos ⟨first, power⟩, first, Nat.cast_sub some, up, zpow_add_one₀ two_ne_zero]
    push_cast
    ring

theorem closed_iff (x : Binary64) : (interval x).closed = decide (x.magnitude % 2 = 0) := by
  have parity : sig x.magnitude % 2 = x.magnitude % 2 := by
    unfold sig leadingUnit
    split <;> omega
  show decide (sig x.magnitude % 2 = 0) = _
  rw [parity]

/-- The interval of a double that is not zero holds the numbers that round to it. -/
theorem contains_iff (hx : 0 < x.magnitude) {num den : ℕ} (hden : 0 < den) :
    (interval x).contains num den = true ↔ Rounds x.magnitude (num / den) := by
  have bottom : (0 : ℚ) < den := by exact_mod_cast hden
  have unit : (0 : ℚ) < (interval x).denominator := by exact_mod_cast denominator_pos x
  unfold Interval.contains Rounds
  rw [closed_iff, ← low_eq hx, ← high_eq, div_le_div_iff₀ unit bottom, div_le_div_iff₀ bottom unit,
    div_lt_div_iff₀ unit bottom, div_lt_div_iff₀ bottom unit]
  by_cases even : x.magnitude % 2 = 0
  · rw [if_pos even, if_pos (decide_eq_true even), Bool.and_eq_true, decide_eq_true_iff,
      decide_eq_true_iff]
    exact_mod_cast Iff.rfl
  · rw [if_neg even, if_neg (by simpa using even), Bool.and_eq_true, decide_eq_true_iff,
      decide_eq_true_iff]
    exact_mod_cast Iff.rfl

end Shortest

end Ontograph
