import Ontograph.Number.Reading
import Ontograph.Proofs.Number.Shortest

/-!
# Numerals stand for finite doubles

What is read from a numeral of a JSON text is never an infinity or a NaN.  The digits that fit into 64
bits give a finite double, a quotient of a finite double by a power of ten is no larger, and a product
that leaves the range of finite doubles is refused.

A quotient is rounded on the grid of its own binade, so rounding takes no number beyond the greatest
finite double (`isFinite_ofRatio`) and no number from one on below one (`one_le_ofRatio`).

Main statement: `Numeral.isFinite_of_toBinary64?`.
-/

namespace Ontograph

namespace Binary64

/-! ## Patterns -/

theorem magnitude_ofMagnitude (negative : Bool) {n : ℕ} (h : n < signBit) :
    (ofMagnitude negative n).magnitude = n := by
  have small : n % signBit + (if negative then signBit else 0) < 2 ^ 64 := by
    rw [Nat.mod_eq_of_lt h]
    unfold signBit at h ⊢
    split <;> omega
  show (UInt64.ofNat _).toNat % signBit = n
  rw [UInt64.toNat_ofNat', Nat.mod_eq_of_lt small, Nat.mod_eq_of_lt h]
  split
  · rw [Nat.add_mod_right, Nat.mod_eq_of_lt h]
  · rw [Nat.add_zero, Nat.mod_eq_of_lt h]

theorem isFinite_ofMagnitude {negative : Bool} {n : ℕ} (h : n < infiniteMagnitude) :
    (ofMagnitude negative n).isFinite = true := by
  have below : n < signBit := h.trans (by decide)
  rw [isFinite, magnitude_ofMagnitude negative below]
  exact decide_eq_true h

theorem isFinite_neg {x : Binary64} (h : x.isFinite = true) : x.neg.isFinite = true :=
  isFinite_ofMagnitude (of_decide_eq_true h)

/-! ## Quotients -/

theorem ratio_pos (x : Binary64) : 0 < x.ratio.2 := by
  unfold ratio
  split
  · exact Nat.one_pos
  · rw [Nat.one_shiftLeft]
    exact Nat.two_pow_pos _

/-- The quotient of a double is its value. -/
theorem ratio_eq (x : Binary64) : (x.ratio.1 : ℚ) / x.ratio.2 = valueAt x.magnitude := by
  have power := ratio_zpow two_pos x.exponent
  rw [valueAt, ← significand_eq, ← exponent_eq, ← Nat.cast_two, ← power]
  unfold ratio
  split <;> simp [Nat.shiftLeft_eq, div_eq_mul_inv]

/-- Rounding takes no quotient beyond a natural number. -/
theorem roundHalfEven_le {num den bound : ℕ} (hden : 0 < den) (h : (num / den : ℚ) ≤ bound) :
    roundHalfEven num den ≤ bound := by
  have bottom : (0 : ℚ) < den := by exact_mod_cast hden
  rw [div_le_iff₀ bottom] at h
  have most : num ≤ den * bound := by exact_mod_cast mul_comm (bound : ℚ) den ▸ h
  have parts := Nat.div_add_mod num den
  have parity := Nat.mod_lt (num / den) two_pos
  unfold roundHalfEven
  simp only
  rcases (Nat.div_le_of_le_mul most).eq_or_lt with whole | below
  · have rest : num % den = 0 := by
      rw [whole] at parts
      omega
    rw [rest, if_pos (by omega)]
    exact whole.le
  · split
    · exact below.le
    · split <;> omega

/-- Rounding takes no quotient from a natural number on below it. -/
theorem le_roundHalfEven {num den bound : ℕ} (hden : 0 < den) (h : (bound : ℚ) ≤ num / den) :
    bound ≤ roundHalfEven num den := by
  have bottom : (0 : ℚ) < den := by exact_mod_cast hden
  rw [le_div_iff₀ bottom] at h
  have least : bound * den ≤ num := by exact_mod_cast h
  have floor : bound ≤ num / den := (Nat.le_div_iff_mul_le hden).2 least
  unfold roundHalfEven
  simp only
  split
  · exact floor
  · split <;> omega

/-- A positive quotient is rounded in units of some power of two. -/
theorem magnitude_ofRatio {num den : ℕ} (hnum : 0 < num) (hden : 0 < den) :
    ∃ (unit : ℤ) (count each : ℕ), 0 < each ∧ unit = max (floorLog2 num den - 52) (-1074) ∧
      (count / each : ℚ) = num / den / 2 ^ unit ∧
      (ofRatio num den).magnitude =
        min ((unit + 1074).toNat * leadingUnit + roundHalfEven count each) infiniteMagnitude := by
  let unit : ℤ := max (floorLog2 num den - 52) (-1074)
  have power := ratio_zpow two_pos unit
  rw [Nat.cast_two] at power
  have written : ofRatio num den = ofMagnitude false (min ((unit + 1074).toNat * leadingUnit +
      if 0 ≤ unit then roundHalfEven num (den <<< unit.toNat)
      else roundHalfEven (num <<< (-unit).toNat) den) infiniteMagnitude) := if_neg hnum.ne'
  have below : ∀ n, min n infiniteMagnitude < signBit :=
    fun n => (Nat.min_le_right _ _).trans_lt (by decide)
  rw [written, magnitude_ofMagnitude false (below _)]
  by_cases nonneg : 0 ≤ unit
  · simp only [if_pos nonneg, Nat.cast_one, div_one] at power ⊢
    refine ⟨unit, num, den <<< unit.toNat, ?_, rfl, ?_, rfl⟩
    · rw [Nat.shiftLeft_eq]
      exact Nat.mul_pos hden (Nat.two_pow_pos _)
    · rw [Nat.shiftLeft_eq, Nat.cast_mul, power, div_div]
  · simp only [if_neg nonneg, Nat.cast_one] at power ⊢
    refine ⟨unit, num <<< (-unit).toNat, den, hden, rfl, ?_, rfl⟩
    rw [Nat.shiftLeft_eq, Nat.cast_mul, ← power]
    field_simp

/-- The value of the greatest finite double. -/
theorem valueAt_greatest : valueAt (infiniteMagnitude - 1) = (2 ^ 53 - 1 : ℕ) * 2 ^ (971 : ℤ) := rfl

/-- A quotient up to the greatest finite double is rounded to a finite double. -/
theorem isFinite_ofRatio {num den : ℕ} (hden : 0 < den)
    (h : (num / den : ℚ) ≤ valueAt (infiniteMagnitude - 1)) : (ofRatio num den).isFinite = true := by
  rcases Nat.eq_zero_or_pos num with rfl | hnum
  · rfl
  obtain ⟨unit, count, each, positive, grid, value, rounded⟩ := magnitude_ofRatio hnum hden
  obtain ⟨reached, beyond⟩ := Shortest.floorLog2_bounds hnum hden
  rw [valueAt_greatest] at h
  have binade : floorLog2 num den < 1024 := by
    have below : ((2 ^ 53 - 1 : ℕ) : ℚ) * 2 ^ (971 : ℤ) < 2 ^ (1024 : ℤ) :=
      calc ((2 ^ 53 - 1 : ℕ) : ℚ) * 2 ^ (971 : ℤ) < 2 ^ (53 : ℤ) * 2 ^ (971 : ℤ) :=
            mul_lt_mul_of_pos_right (by norm_num) (zpow_pos' _)
        _ = 2 ^ (1024 : ℤ) := by rw [← zpow_add₀ two_ne_zero]; rfl
    exact (zpow_lt_zpow_iff_right₀ one_lt_two).1 (reached.trans_lt (h.trans_lt below))
  have units : (count / each : ℚ) ≤ (2 ^ 53 : ℕ) := by
    rw [value, div_le_iff₀ (zpow_pos' unit)]
    have next : (2 : ℚ) ^ (floorLog2 num den + 1) ≤ 2 ^ (53 + unit) :=
      zpow_le_zpow_right₀ one_le_two (by omega)
    calc (num / den : ℚ) ≤ 2 ^ (53 + unit) := beyond.le.trans next
      _ = (2 ^ 53 : ℕ) * 2 ^ unit := by
          rw [zpow_add₀ two_ne_zero]
          norm_num
  have full := roundHalfEven_le positive units
  -- In the last binade the greatest finite double has one unit less than a full grid.
  have last : unit = 971 → roundHalfEven count each ≤ 2 ^ 53 - 1 := by
    rintro rfl
    refine roundHalfEven_le positive ?_
    rwa [value, div_le_iff₀ (zpow_pos' _)]
  rw [isFinite, decide_eq_true_iff, rounded]
  refine (Nat.min_le_left _ _).trans_lt ?_
  unfold leadingUnit infiniteMagnitude
  by_cases top : unit = 971
  · have less := last top
    omega
  · omega

/-- A quotient from one on is not rounded below one. -/
theorem one_le_ofRatio {num den : ℕ} (hden : 0 < den) (h : den ≤ num) :
    1 ≤ valueAt (ofRatio num den).magnitude := by
  have hnum := hden.trans_le h
  obtain ⟨unit, count, each, positive, grid, value, rounded⟩ := magnitude_ofRatio hnum hden
  obtain ⟨reached, beyond⟩ := Shortest.floorLog2_bounds hnum hden
  have one : valueAt (1023 * leadingUnit) = 1 := by
    show ((2 ^ 52 : ℕ) : ℚ) * 2 ^ (-52 : ℤ) = 1
    norm_num
  have whole : (1 : ℚ) ≤ num / den := by
    rw [one_le_div (by exact_mod_cast hden)]
    exact_mod_cast h
  have binade : 0 ≤ floorLog2 num den := by
    have above : (2 : ℚ) ^ (0 : ℤ) < 2 ^ (floorLog2 num den + 1) := by
      rw [zpow_zero]
      exact whole.trans_lt beyond
    have := (zpow_lt_zpow_iff_right₀ one_lt_two).1 above
    omega
  have units : ((2 ^ 52 : ℕ) : ℚ) ≤ count / each := by
    rw [value, le_div_iff₀ (zpow_pos' unit)]
    have same : (2 : ℚ) ^ floorLog2 num den = 2 ^ (52 + unit) := congrArg _ (by omega)
    calc ((2 ^ 52 : ℕ) : ℚ) * 2 ^ unit = 2 ^ (52 + unit) := by
          rw [zpow_add₀ two_ne_zero]
          norm_num
      _ ≤ num / den := same ▸ reached
  have full := le_roundHalfEven positive units
  rw [← one]
  refine valueAt_strictMono.monotone ?_
  rw [rounded]
  unfold leadingUnit infiniteMagnitude
  omega

theorem isFinite_ofNat {n : ℕ} (h : n < 2 ^ 64) : (ofNat n).isFinite = true := by
  refine isFinite_ofRatio Nat.one_pos ?_
  have small : (n / (1 : ℕ) : ℚ) ≤ 2 ^ 64 := by
    rw [Nat.cast_one, div_one]
    exact_mod_cast h.le
  have powers : (2 : ℚ) ^ (12 : ℤ) ≤ 2 ^ (971 : ℤ) := zpow_le_zpow_right₀ one_le_two (by decide)
  calc (n / (1 : ℕ) : ℚ) ≤ 2 ^ 64 := small
    _ ≤ (2 ^ 53 - 1 : ℕ) * 2 ^ (12 : ℤ) := by norm_num
    _ ≤ (2 ^ 53 - 1 : ℕ) * 2 ^ (971 : ℤ) := by gcongr
    _ = valueAt (infiniteMagnitude - 1) := valueAt_greatest.symm

theorem one_le_pow10 (n : ℕ) : 1 ≤ valueAt (pow10 n).magnitude :=
  one_le_ofRatio Nat.one_pos (Nat.pow_pos (n := n) (by decide : 0 < 10))

/-- A finite double divided by one that is not below one is finite. -/
theorem isFinite_div {x y : Binary64} (finite : x.isFinite = true)
    (large : 1 ≤ valueAt y.magnitude) : (x.div y).isFinite = true := by
  have top : 0 < y.ratio.1 := by
    rw [Nat.pos_iff_ne_zero]
    intro none
    rw [← ratio_eq, none] at large
    norm_num at large
  refine isFinite_ofRatio (Nat.mul_pos x.ratio_pos top) ?_
  have below : valueAt x.magnitude ≤ valueAt (infiniteMagnitude - 1) :=
    valueAt_strictMono.monotone (Nat.le_sub_one_of_lt (of_decide_eq_true finite))
  have nonneg : 0 ≤ valueAt x.magnitude := by
    rw [← ratio_eq]
    positivity
  calc ((x.ratio.1 * y.ratio.2 : ℕ) / (x.ratio.2 * y.ratio.1 : ℕ) : ℚ)
      = valueAt x.magnitude / valueAt y.magnitude := by
        rw [← ratio_eq, ← ratio_eq]
        push_cast
        rw [div_div_div_eq]
    _ ≤ valueAt x.magnitude := div_le_self nonneg large
    _ ≤ valueAt (infiniteMagnitude - 1) := below

/-- A finite double is finite when it has been multiplied by one. -/
theorem isFinite_mul_one {x : Binary64} (finite : x.isFinite = true) :
    (x.mul (pow10 0)).isFinite = true := by
  have one : (pow10 0).ratio = (2 ^ 52, 2 ^ 52) := rfl
  rw [mul, one]
  refine isFinite_ofRatio (Nat.mul_pos x.ratio_pos (Nat.two_pow_pos 52)) ?_
  have below : valueAt x.magnitude ≤ valueAt (infiniteMagnitude - 1) :=
    valueAt_strictMono.monotone (Nat.le_sub_one_of_lt (of_decide_eq_true finite))
  calc ((x.ratio.1 * 2 ^ 52 : ℕ) / (x.ratio.2 * 2 ^ 52 : ℕ) : ℚ) = x.ratio.1 / x.ratio.2 := by
        push_cast
        rw [mul_div_mul_right _ _ (by norm_num)]
    _ = valueAt x.magnitude := ratio_eq x
    _ ≤ valueAt (infiniteMagnitude - 1) := below

end Binary64

namespace Numeral

open Binary64

/-! ## Steps -/

/-- The digits of the whole part that are taken fit into 64 bits. -/
theorem takeWhole_lt {n : ℕ} (h : n < 2 ^ 64) (digits : List Digit) :
    (takeWhole n digits).1 < 2 ^ 64 := by
  induction digits generalizing n with
  | nil => exact h
  | cons d rest ih =>
      rw [takeWhole]
      split
      · next fits => exact ih fits
      · exact h

/-- And so do those with the digits of the fraction that are taken. -/
theorem takeFraction_lt {n : ℕ} (h : n < 2 ^ 64) (digits : List Digit) :
    (takeFraction n digits).1 < 2 ^ 64 := by
  induction digits generalizing n with
  | nil => exact h
  | cons d rest ih =>
      rw [takeFraction]
      split
      · next fits => exact ih fits
      · exact h

theorem isFinite_scaleDown {x : Binary64} (finite : x.isFinite = true) (n : ℕ) :
    (scaleDown x n).isFinite = true := by
  fun_induction scaleDown x n with
  | case1 => exact isFinite_div finite (one_le_pow10 _)
  | case2 => exact finite
  | case3 x n _ _ ih => exact ih (isFinite_div finite (one_le_pow10 _))

theorem isFinite_scale {x y : Binary64} {e : ℤ} (finite : x.isFinite = true)
    (h : scale x e = some y) : y.isFinite = true := by
  unfold scale at h
  split at h
  · cases h
    exact isFinite_scaleDown finite _
  · split at h
    · simp only at h
      split at h
      · next inside =>
          cases h
          exact inside
      · cases h
    · split at h
      · cases h
        exact finite
      · cases h

/-- Digits are added to a number without making it smaller. -/
theorem le_foldl_digits (n : ℕ) (digits : List Digit) :
    n ≤ digits.foldl (fun n d => 10 * n + d.val) n := by
  induction digits generalizing n with
  | nil => exact le_refl n
  | cons d rest ih => exact le_trans (by omega) (ih (10 * n + d.val))

/-- All digits of a whole part are taken if its value fits into 64 bits. -/
theorem takeWhole_eq {digits : List Digit} {n : ℕ}
    (h : digits.foldl (fun n d => 10 * n + d.val) n < UInt64.size) :
    takeWhole n digits = (digits.foldl (fun n d => 10 * n + d.val) n, 0) := by
  induction digits generalizing n with
  | nil => rfl
  | cons d rest ih =>
      rw [takeWhole, if_pos ((le_foldl_digits _ rest).trans_lt h)]
      exact ih h

/-- The numeral of an integer whose absolute value fits into 64 bits stands for a double. -/
theorem isSome_toBinary64?_ofInt {i : ℤ} (h : i.natAbs < UInt64.size) :
    (ofInt i).toBinary64?.isSome = true := by
  have whole : takeWhole 0 (ofInt i).whole = (i.natAbs, 0) := by
    have value : Digit.value (Digit.ofNat i.natAbs) = i.natAbs := Digit.value_ofNat _
    exact (takeWhole_eq (value.trans_lt h)).trans (congrArg (·, 0) value)
  have scaled : scale (Binary64.ofNat i.natAbs) 0 =
      some ((Binary64.ofNat i.natAbs).mul (Binary64.pow10 0)) := by
    have finite := isFinite_mul_one (isFinite_ofNat h)
    rw [scale, if_neg (by decide), if_pos (by decide)]
    exact if_pos finite
  have read : (ofInt i).toBinary64? = if (ofInt i).negative then
      (scale (Binary64.ofNat i.natAbs) 0).map Binary64.neg else scale (Binary64.ofNat i.natAbs) 0 := by
    unfold toBinary64?
    rw [whole]
    rfl
  rw [read, scaled]
  split <;> rfl

/-- A numeral stands for a finite double, if for any. -/
theorem isFinite_of_toBinary64? {n : Numeral} {x : Binary64} (h : n.toBinary64? = some x) :
    x.isFinite = true := by
  have start : 0 < 2 ^ 64 := Nat.two_pow_pos 64
  have digits := takeFraction_lt (takeWhole_lt start n.whole) n.fraction
  have scaled : ∀ e y, scale (ofNat (takeFraction (takeWhole 0 n.whole).1 n.fraction).1) e = some y →
      y.isFinite = true := fun e y => isFinite_scale (isFinite_ofNat digits)
  unfold toBinary64? at h
  simp only at h
  split at h
  · obtain ⟨y, hy, rfl⟩ := Option.map_eq_some_iff.1 h
    exact isFinite_neg (scaled _ y hy)
  · exact scaled _ x h

end Numeral

end Ontograph
