import Mathlib.Data.List.DropRight
import Ontograph.Ontology.Literal
import Ontograph.Proofs.Number.Layout
import Ontograph.Proofs.Number.Numeral
import Ontograph.Proofs.Number.Rounding

/-!
# Shortest decimals are read back

The shortest decimal of a double rounds to the double.  What the search finds on some grid lies in the
interval by the test it has passed, and with seventeen digits there always is something to find: the
decimal exponent is at most that of the value, so two neighbours on the grid are closer to each other
than the ends of the interval.  Since no number rounds to two doubles, the text of a finite double
determines it.

Main statements: `Shortest.rounds_scientific` (the decimal rounds to the double) and
`Binary64.numeral_inj` (the numeral determines the double).
-/

namespace Ontograph

open Binary64

namespace Shortest

variable {x : Binary64} {tie : Tie} {i : Interval} {exponent : ℤ}

/-! ## Grids -/

/-- The place of the last digit on the grid of the numbers with some digits. -/
def place (exponent : ℤ) (count : ℕ) : ℤ :=
  exponent - (count - 1 : ℕ)

/-- The numerator of a power of ten. -/
def up (k : ℤ) : ℕ :=
  if 0 ≤ k then tenTo k.toNat else 1

/-- The denominator of a power of ten. -/
def down (k : ℤ) : ℕ :=
  if 0 ≤ k then 1 else tenTo (-k).toNat

theorem up_div_down (k : ℤ) : (up k : ℚ) / down k = 10 ^ k := by
  have ratio := ratio_zpow (b := 10) (by decide) k
  exact_mod_cast ratio

theorem down_pos (k : ℤ) : 0 < down k := by
  unfold down
  split
  · exact Nat.one_pos
  · exact Nat.pow_pos (by decide)

theorem up_pos (k : ℤ) : 0 < up k := by
  unfold up
  split
  · exact Nat.pow_pos (by decide)
  · exact Nat.one_pos

/-- The neighbour below the value on a grid, in units of the grid. -/
def below (i : Interval) (k : ℤ) : ℕ :=
  i.value * down k / (i.denominator * up k)

theorem up_place (exponent : ℤ) (count : ℕ) :
    (if 0 ≤ exponent - ((count - 1 : ℕ) : ℤ) then tenTo (exponent - ((count - 1 : ℕ) : ℤ)).toNat
      else 1) = up (place exponent count) := by
  rw [up, place]

theorem down_place (exponent : ℤ) (count : ℕ) :
    (if 0 ≤ exponent - ((count - 1 : ℕ) : ℤ) then 1
      else tenTo (-(exponent - ((count - 1 : ℕ) : ℤ))).toNat) =
      down (place exponent count) := by
  rw [down, place]

/-- What is taken on a grid lies in the interval. -/
theorem contains_of_onGrid {count n : ℕ} (h : onGrid tie i exponent count = some n) :
    i.contains (n * up (place exponent count)) (down (place exponent count)) = true := by
  unfold onGrid at h
  simp only [up_place, down_place] at h
  split at h
  · cases h
  · next low _ =>
      obtain rfl := Option.some.inj h
      exact low
  · next _ high =>
      obtain rfl := Option.some.inj h
      exact high
  · next low high =>
      split at h
      · obtain rfl := Option.some.inj h
        exact low
      split at h
      · obtain rfl := Option.some.inj h
        exact high
      split at h
      · obtain rfl := Option.some.inj h
        exact high
      · obtain rfl := Option.some.inj h
        rcases Nat.mod_two_eq_zero_or_one (i.value * down (place exponent count) /
          (i.denominator * up (place exponent count))) with even | odd
        · rw [even]
          exact low
        · rw [odd]
          exact high

/-- If nothing is taken on a grid, neither neighbour lies in the interval. -/
theorem not_contains_of_onGrid {count : ℕ} (h : onGrid tie i exponent count = none) :
    i.contains (below i (place exponent count) * up (place exponent count))
      (down (place exponent count)) = false ∧
    i.contains ((below i (place exponent count) + 1) * up (place exponent count))
      (down (place exponent count)) = false := by
  unfold onGrid at h
  simp only [up_place, down_place] at h
  split at h
  · next low high => exact ⟨low, high⟩
  · cases h
  · cases h
  · split at h
    · cases h
    split at h
    · cases h
    split at h <;> cases h

/-! ## The search -/

/-- The search takes what is on the first grid with a hit, if there is one to be found. -/
theorem search_eq (fuel count : ℕ) {later : ℕ} (from_ : count ≤ later) (upTo : later < count + fuel)
    (hit : onGrid tie i exponent later ≠ none) :
    ∃ n c, search tie i exponent fuel count = (n, c) ∧ count ≤ c ∧
      onGrid tie i exponent c = some n := by
  induction fuel generalizing count with
  | zero => omega
  | succ fuel ih =>
      unfold search
      cases found : onGrid tie i exponent count with
      | some n => exact ⟨n, count, rfl, Nat.le_refl count, found⟩
      | none =>
          have other : count ≠ later := by
            rintro rfl
            exact hit found
          obtain ⟨n, c, taken, more, onIt⟩ := ih (count + 1) (by omega) (by omega)
          exact ⟨n, c, taken, Nat.le_of_succ_le more, onIt⟩

/-- A number of units of a grid. -/
theorem units_eq (n : ℕ) (k : ℤ) : ((n * up k : ℕ) : ℚ) / down k = n * 10 ^ k := by
  rw [Nat.cast_mul, mul_div_assoc, up_div_down]

/-- The value of a double lies between its two neighbours on a grid. -/
theorem below_le (x : Binary64) (k : ℤ) :
    (below (interval x) k : ℚ) * 10 ^ k ≤ valueAt x.magnitude ∧
      valueAt x.magnitude < (below (interval x) k + 1 : ℕ) * 10 ^ k := by
  have bottom : (0 : ℚ) < (interval x).denominator := by exact_mod_cast denominator_pos x
  have grid : (0 : ℚ) < down k := by exact_mod_cast down_pos k
  have each : 0 < (interval x).denominator * up k := Nat.mul_pos (denominator_pos x) (up_pos k)
  rw [← units_eq, ← units_eq, ← value_eq, div_le_div_iff₀ grid bottom, div_lt_div_iff₀ bottom grid]
  constructor
  · have floor := Nat.div_mul_le_self ((interval x).value * down k) ((interval x).denominator * up k)
    have same : below (interval x) k * up k * (interval x).denominator ≤
        (interval x).value * down k := by
      rw [below, mul_assoc, mul_comm (up k)]
      exact floor
    exact_mod_cast same
  · have next := Nat.lt_div_mul_add (a := (interval x).value * down k) each
    have same : (interval x).value * down k <
        (below (interval x) k + 1) * up k * (interval x).denominator := by
      rw [below, mul_assoc, mul_comm (up k), Nat.add_mul, Nat.one_mul]
      exact next
    exact_mod_cast same

/-- With seventeen digits a neighbour lies in the interval, if the exponent is not too large. -/
theorem seventeen (tie : Tie) (hx : 0 < x.magnitude)
    (small : (10 : ℚ) ^ exponent ≤ valueAt x.magnitude) :
    onGrid tie (interval x) exponent 17 ≠ none := by
  intro none
  obtain ⟨low, high⟩ := not_contains_of_onGrid none
  have positive := down_pos (place exponent 17)
  rw [← Bool.not_eq_true, contains_iff hx positive, units_eq] at low high
  obtain ⟨lower, upper⟩ := below_le x (place exponent 17)
  have start : half (x.magnitude - 1) < valueAt x.magnitude := by
    have step := half_lt_valueAt (x.magnitude - 1)
    rwa [Nat.sub_add_cancel hx] at step
  -- Both neighbours miss the interval, so it lies between them and the grid is too coarse.
  have left : (below (interval x) (place exponent 17) : ℚ) * 10 ^ place exponent 17 ≤
      half (x.magnitude - 1) := by
    by_contra inside
    exact low (rounds_of_lt (not_le.1 inside) (lower.trans_lt (valueAt_lt_half _)))
  have right : half x.magnitude ≤
      (below (interval x) (place exponent 17) + 1 : ℕ) * 10 ^ place exponent 17 := by
    by_contra inside
    exact high (rounds_of_lt (start.trans upper) (not_le.1 inside))
  have unit : (10 : ℚ) ^ 16 * 10 ^ place exponent 17 = 10 ^ exponent := by
    rw [← zpow_natCast, ← zpow_add₀ (by norm_num)]
    congr 1
    unfold place
    omega
  have wide := valueAt_lt_width hx
  push_cast at right
  linarith

/-- The search for the exponent stays below the value from a start that is not too high. -/
theorem floorLog10_le (fuel : ℕ) {num den : ℕ} {k : ℤ} (hden : 0 < den)
    (low : (10 : ℚ) ^ (k - fuel) ≤ num / den) :
    (10 : ℚ) ^ floorLog10 num den fuel k ≤ num / den := by
  induction fuel generalizing k with
  | zero => simpa [floorLog10] using low
  | succ fuel ih =>
      have decided := reaches_iff (b := 10) (by decide) num hden k
      by_cases reaches : if 0 ≤ k then den * 10 ^ k.toNat ≤ num else den ≤ num * 10 ^ (-k).toNat
      · have stop : floorLog10 num den (fuel + 1) k = k := if_pos reaches
        rw [stop]
        exact_mod_cast decided.1 reaches
      · have go : floorLog10 num den (fuel + 1) k = floorLog10 num den fuel (k - 1) := if_neg reaches
        have same : k - 1 - fuel = k - (fuel + 1 : ℕ) := by
          push_cast
          ring
        rw [go]
        exact ih (same ▸ low)

/-! ## Exponents -/

/-- The logarithm is the difference of those of the parts, or one less if that is too much. -/
theorem floorLog2_cases (num : ℕ) {den : ℕ} (hden : 0 < den) :
    (floorLog2 num den = (num.log2 : ℤ) - den.log2 ∧
      (2 : ℚ) ^ ((num.log2 : ℤ) - den.log2) ≤ num / den) ∨
    (floorLog2 num den = (num.log2 : ℤ) - den.log2 - 1 ∧
      (num / den : ℚ) < 2 ^ ((num.log2 : ℤ) - den.log2)) := by
  have decided := reaches_iff (b := 2) (by decide) num hden ((num.log2 : ℤ) - den.log2)
  unfold floorLog2
  simp only [Nat.shiftLeft_eq]
  by_cases reaches : (2 : ℚ) ^ ((num.log2 : ℤ) - den.log2) ≤ num / den
  · exact .inl ⟨if_pos (decided.2 (by exact_mod_cast reaches)), reaches⟩
  · refine .inr ⟨if_neg fun yes => reaches (by exact_mod_cast decided.1 yes), not_le.1 reaches⟩

/-- The logarithm to the base two, rounded down. -/
theorem floorLog2_bounds {num den : ℕ} (hnum : 0 < num) (hden : 0 < den) :
    (2 : ℚ) ^ floorLog2 num den ≤ num / den ∧ (num / den : ℚ) < 2 ^ (floorLog2 num den + 1) := by
  have bottom : (0 : ℚ) < den := by exact_mod_cast hden
  have numLow : (2 : ℚ) ^ (num.log2 : ℤ) ≤ num := by
    exact_mod_cast Nat.log2_self_le hnum.ne'
  have numHigh : (num : ℚ) < 2 ^ (num.log2 + 1 : ℤ) := by
    exact_mod_cast Nat.lt_log2_self
  have denLow : (2 : ℚ) ^ (den.log2 : ℤ) ≤ den := by
    exact_mod_cast Nat.log2_self_le hden.ne'
  have denHigh : (den : ℚ) < 2 ^ (den.log2 + 1 : ℤ) := by
    exact_mod_cast Nat.lt_log2_self
  rcases floorLog2_cases num hden with ⟨full, reaches⟩ | ⟨less, short⟩
  · rw [full]
    refine ⟨reaches, ?_⟩
    calc (num / den : ℚ) < 2 ^ (num.log2 + 1 : ℤ) / 2 ^ (den.log2 : ℤ) :=
          div_lt_div₀ numHigh denLow (by positivity) (by positivity)
      _ = 2 ^ ((num.log2 : ℤ) - den.log2 + 1) := by
          rw [← zpow_sub₀ two_ne_zero, add_sub_right_comm]
  · rw [less, Int.sub_add_cancel]
    refine ⟨?_, short⟩
    calc (2 : ℚ) ^ ((num.log2 : ℤ) - den.log2 - 1)
        = 2 ^ (num.log2 : ℤ) / 2 ^ (den.log2 + 1 : ℤ) := by
          rw [← zpow_sub₀ two_ne_zero, sub_sub]
      _ ≤ num / den := div_le_div₀ (Nat.cast_nonneg num) numLow bottom denHigh.le

/-- A power of ten is at most a power of two if a power of each of them is. -/
theorem ten_le_two {p q : ℕ} {a l : ℤ} (hq : q ≠ 0) (exponents : q * a ≤ p * l)
    (powers : ((10 : ℚ) ^ p) ^ l ≤ (2 ^ q) ^ l) : (10 : ℚ) ^ a ≤ 2 ^ l := by
  rw [← pow_le_pow_iff_left₀ (by positivity) (by positivity) hq]
  calc ((10 : ℚ) ^ a) ^ q = 10 ^ (q * a) := by rw [← zpow_natCast, ← zpow_mul, mul_comm]
    _ ≤ 10 ^ (p * l) := zpow_le_zpow_right₀ (by norm_num) exponents
    _ = (10 ^ p) ^ l := by rw [zpow_mul, zpow_natCast]
    _ ≤ (2 ^ q) ^ l := powers
    _ = (2 ^ l) ^ q := by rw [← zpow_natCast, ← zpow_natCast, ← zpow_mul, ← zpow_mul, mul_comm]

/-- The start of the search for the exponent is at most four above it. -/
theorem exponentBound_le {num den : ℕ} (hnum : 0 < num) (hden : 0 < den)
    (low : (2 : ℚ) ^ (-1074 : ℤ) ≤ num / den) (high : (num / den : ℚ) < 2 ^ (1024 : ℤ)) :
    (10 : ℚ) ^ (exponentBound num den - 4) ≤ num / den := by
  obtain ⟨reached, beyond⟩ := floorLog2_bounds hnum hden
  unfold exponentBound
  rw [Int.fdiv_eq_ediv_of_nonneg _ (by decide)]
  generalize floorLog2 num den = l at reached beyond
  have least : -1074 < l + 1 := (zpow_lt_zpow_iff_right₀ one_lt_two).1 (low.trans_lt beyond)
  have most : l < 1024 := (zpow_lt_zpow_iff_right₀ one_lt_two).1 (reached.trans_lt high)
  refine le_trans ?_ reached
  -- Two powers of ten and two that are close to each other, one on either side.
  by_cases nonneg : 0 ≤ l
  · refine ten_le_two (p := 3) (q := 10) (by decide) (by omega) ?_
    exact zpow_le_zpow_left₀ nonneg (by norm_num) (by norm_num)
  · refine ten_le_two (p := 28) (q := 93) (by decide) (by omega) ?_
    have swapped : ((2 : ℚ) ^ 93) ^ (-l) ≤ (10 ^ 28) ^ (-l) :=
      zpow_le_zpow_left₀ (by omega) (by norm_num) (by norm_num)
    rw [zpow_neg, zpow_neg] at swapped
    exact (inv_le_inv₀ (by positivity) (by positivity)).1 swapped

/-! ## Digits -/

/-- Only zeros are dropped at the end. -/
theorem trimZeros_append (digits : List Digit) :
    ∃ n, trimZeros digits ++ List.replicate n Digit.zero = digits := by
  cases digits with
  | nil => exact ⟨0, rfl⟩
  | cons d rest =>
      have zeros : rest.rtakeWhile (· = Digit.zero) =
          List.replicate (rest.rtakeWhile (· = Digit.zero)).length Digit.zero := by
        rw [List.eq_replicate_iff]
        refine ⟨rfl, fun c hc => ?_⟩
        have zero := List.mem_rtakeWhile_imp hc
        exact of_decide_eq_true zero
      have parts := List.rdropWhile_append_rtakeWhile (p := (· = Digit.zero)) (l := rest)
      rw [zeros] at parts
      exact ⟨_, congrArg (d :: ·) parts⟩

theorem trimZeros_ne_nil {digits : List Digit} (h : digits ≠ []) : trimZeros digits ≠ [] := by
  cases digits with
  | nil => exact absurd rfl h
  | cons d rest => exact List.cons_ne_nil _ _

theorem scientific_digits_ne_nil (tie : Tie) (x : Binary64) : (scientific tie x).digits ≠ [] := by
  unfold scientific
  split
  · exact List.cons_ne_nil _ _
  · exact trimZeros_ne_nil (Digit.ofNat_ne_nil _)

/-- The digits of a number on a grid, without the zeros at the end, stand for the number. -/
theorem value_trimmed (n : ℕ) {count : ℕ} (hcount : 1 ≤ count) (exponent : ℤ) :
    (Scientific.mk (trimZeros (Digit.ofNat n))
      (exponent + ((Digit.ofNat n).length - count))).value = n * 10 ^ place exponent count := by
  obtain ⟨zeros, same⟩ := trimZeros_append (Digit.ofNat n)
  have number := congrArg Digit.value same
  have length := congrArg List.length same
  rw [Digit.value_append, Digit.value_zeros, Digit.value_ofNat, List.length_replicate,
    Nat.add_zero] at number
  rw [List.length_append, List.length_replicate] at length
  have exponents : exponent + (((Digit.ofNat n).length : ℤ) - count) + 1 -
      (trimZeros (Digit.ofNat n)).length = zeros + place exponent count := by
    unfold place
    omega
  have whole : (Digit.value (trimZeros (Digit.ofNat n)) : ℚ) * 10 ^ zeros = n := by
    exact_mod_cast number
  show (Digit.value (trimZeros (Digit.ofNat n)) : ℚ) * 10 ^ _ = _
  rw [exponents, zpow_add₀ (by norm_num), zpow_natCast, ← mul_assoc, whole]

theorem value_zero (tie : Tie) {x : Binary64} (h : x.magnitude = 0) : (scientific tie x).value = 0 := by
  have zero : scientific tie x = ⟨[Digit.zero], 0⟩ := if_pos (decide_eq_true h)
  rw [zero]
  show ((0 : ℕ) : ℚ) * _ = 0
  rw [Nat.cast_zero, zero_mul]

/-- The shortest decimal of a double that is not zero rounds to the double. -/
theorem rounds_scientific (tie : Tie) (finite : x.isFinite = true) (hx : 0 < x.magnitude) :
    Rounds x.magnitude (scientific tie x).value := by
  have nonzero : ¬ x.isZero = true := fun zero => hx.ne' (of_decide_eq_true zero)
  obtain ⟨low, high⟩ := valueAt_bounds hx (of_decide_eq_true finite)
  have bottom := denominator_pos x
  have units : 0 < (interval x).value := by
    by_contra none
    have zero := value_eq x
    rw [Nat.eq_zero_of_not_pos none, Nat.cast_zero, zero_div] at zero
    rw [← zero] at low
    exact absurd low (not_le.2 (zpow_pos' _))
  rw [← value_eq x] at low high
  have small := floorLog10_le 4 bottom (exponentBound_le units bottom low high)
  rw [value_eq x] at small
  obtain ⟨n, count, taken, counts, onIt⟩ :=
    search_eq 17 1 (by decide) (by decide) (seventeen tie hx small)
  have written : scientific tie x = ⟨trimZeros (Digit.ofNat n),
      floorLog10 (interval x).value (interval x).denominator 4
        (exponentBound (interval x).value (interval x).denominator) +
        ((Digit.ofNat n).length - count)⟩ := by
    unfold scientific
    rw [if_neg nonzero]
    simp only [taken]
  rw [written, value_trimmed n counts, ← units_eq]
  exact (contains_iff hx (down_pos _)).1 (contains_of_onGrid onIt)

/-- The shortest decimal of a double that is not zero is not zero. -/
theorem value_pos (tie : Tie) (finite : x.isFinite = true) (hx : 0 < x.magnitude) :
    0 < (scientific tie x).value := by
  have least : valueAt 0 = 0 := by
    show ((0 : ℕ) : ℚ) * _ = 0
    rw [Nat.cast_zero, zero_mul]
  have start : 0 < half (x.magnitude - 1) :=
    calc (0 : ℚ) = valueAt 0 := least.symm
      _ < half 0 := valueAt_lt_half 0
      _ ≤ half (x.magnitude - 1) := half_strictMono.monotone (Nat.zero_le _)
  exact start.trans_le (rounds_scientific tie finite hx).le.1

end Shortest

namespace Binary64

/-! ## Numerals of doubles -/

/-- The numeral of a finite double in queries and messages. -/
def numeral (x : Binary64) : Numeral :=
  plainLayout.numeral x.negative (Shortest.scientific .upward x)

theorem display_eq {x : Binary64} (h : x.isFinite = true) :
    x.display = String.ofList (x.numeral.chars false) :=
  if_pos h

theorem numeral_broken (x : Binary64) : x.numeral.fraction ≠ [] ∨ x.numeral.exponent ≠ none :=
  Layout.numeral_broken _ _ (Shortest.scientific_digits_ne_nil _ x)

theorem value_numeral (x : Binary64) :
    x.numeral.value = (Shortest.scientific .upward x).value :=
  Layout.value_numeral _ _ (Shortest.scientific_digits_ne_nil _ x)

theorem value_numeral_pos {x : Binary64} (finite : x.isFinite = true) (hx : 0 < x.magnitude) :
    0 < x.numeral.value := by
  rw [value_numeral]
  exact Shortest.value_pos _ finite hx

/-- The numeral determines the double. -/
theorem numeral_inj {x y : Binary64} (hx : x.isFinite = true) (hy : y.isFinite = true)
    (h : x.numeral = y.numeral) : x = y := by
  have signs : x.negative = y.negative := by
    have same := congrArg Numeral.negative h
    rwa [numeral, numeral, Layout.negative_numeral, Layout.negative_numeral] at same
  have values := congrArg Numeral.value h
  have magnitudes : x.magnitude = y.magnitude := by
    rcases Nat.eq_zero_or_pos x.magnitude with zero | some <;>
      rcases Nat.eq_zero_or_pos y.magnitude with zero' | some'
    · rw [zero, zero']
    · have positive := value_numeral_pos hy some'
      rw [← values, value_numeral, Shortest.value_zero _ zero] at positive
      exact absurd positive (lt_irrefl 0)
    · have positive := value_numeral_pos hx some
      rw [values, value_numeral, Shortest.value_zero _ zero'] at positive
      exact absurd positive (lt_irrefl 0)
    · have rounds := Shortest.rounds_scientific .upward hx some
      rw [← value_numeral, values, value_numeral] at rounds
      exact rounds.eq (Shortest.rounds_scientific .upward hy some')
  have bits := x.toNat_bits
  rw [signs, magnitudes, ← y.toNat_bits] at bits
  cases x
  cases y
  exact congrArg mk (UInt64.toNat_inj.1 bits)

end Binary64

end Ontograph
