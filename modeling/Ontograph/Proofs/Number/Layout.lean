import Mathlib.Algebra.Order.Field.Power
import Mathlib.Tactic.FieldSimp
import Mathlib.Tactic.NormNum
import Mathlib.Tactic.Ring
import Ontograph.Number.Decimal

/-!
# Values of decimals

What number a run of digits, a decimal in scientific form and a numeral stand for, without the sign.
However a decimal is laid out, positionally or with an exponent, the numeral stands for the same number.

Main statement: `Layout.value_numeral`.
-/

namespace Ontograph

/-! ## Digits -/

namespace Digit

theorem foldl_start (digits : List Digit) (n : ℕ) :
    digits.foldl (fun n d => 10 * n + d.val) n = n * 10 ^ digits.length + value digits := by
  induction digits generalizing n with
  | nil => simp [value]
  | cons d rest ih =>
      show rest.foldl _ (10 * n + d.val) = n * 10 ^ (rest.length + 1) + rest.foldl _ (10 * 0 + d.val)
      rw [ih, ih]
      ring

theorem value_append (a b : List Digit) : value (a ++ b) = value a * 10 ^ b.length + value b := by
  rw [value, List.foldl_append, foldl_start]
  rfl

theorem value_zeros (n : ℕ) : value (List.replicate n zero) = 0 := by
  induction n with
  | zero => rfl
  | succ n ih =>
      rw [List.replicate_succ, ← List.singleton_append, value_append, ih]
      show 0 * 10 ^ _ + 0 = 0
      rw [Nat.zero_mul]

end Digit

/-! ## Numerals -/

/-- The number that a numeral stands for, without its sign. -/
def Numeral.value (n : Numeral) : ℚ :=
  Digit.value (n.whole ++ n.fraction) * 10 ^ (n.exponent.getD 0 - n.fraction.length)

/-- The number that a decimal in scientific form stands for. -/
def Scientific.value (s : Scientific) : ℚ :=
  Digit.value s.digits * 10 ^ (s.exponent + 1 - s.digits.length)

namespace Layout

/-- A numeral stands for a decimal if its digits are the decimal's between zeros and the point is at the
right place. -/
theorem value_of_digits (front back : ℕ) {n : Numeral} {s : Scientific}
    (same : n.whole ++ n.fraction =
      List.replicate front Digit.zero ++ (s.digits ++ List.replicate back Digit.zero))
    (place : n.exponent.getD 0 - n.fraction.length = s.exponent + 1 - s.digits.length - back) :
    n.value = s.value := by
  unfold Numeral.value Scientific.value
  rw [same, place, Digit.value_append, Digit.value_zeros, Digit.value_append, Digit.value_zeros,
    List.length_replicate]
  push_cast
  rw [zpow_sub₀ (by norm_num), zpow_natCast]
  field_simp
  ring

theorem value_positional (negative : Bool) (s : Scientific) :
    (positional negative s).value = s.value := by
  unfold positional
  split
  · next large =>
      obtain ⟨e, he⟩ := Int.eq_ofNat_of_zero_le large
      simp only [he, Int.toNat_natCast]
      by_cases short : s.digits.length ≤ e + 1
      · have all : s.digits.take (e + 1) = s.digits := List.take_of_length_le short
        have none : s.digits.drop (e + 1) = [] := List.drop_eq_nil_of_le short
        rw [all, none]
        refine value_of_digits 0 (e + 1 - s.digits.length + 1) ?_ ?_
        · show s.digits ++ List.replicate _ Digit.zero ++ [Digit.zero] = _
          rw [List.append_assoc, List.replicate_succ']
          rfl
        · show (0 : ℤ) - (1 : ℕ) = _
          omega
      · have filled : e + 1 - (s.digits.take (e + 1)).length = 0 := by
          rw [List.length_take]
          omega
        have some : (s.digits.drop (e + 1)).isEmpty = false := by
          rw [List.isEmpty_eq_false_iff, Ne, List.drop_eq_nil_iff]
          omega
        rw [filled, some]
        refine value_of_digits 0 0 ?_ ?_
        · simp
        · show (0 : ℤ) - (s.digits.drop (e + 1)).length = _
          rw [List.length_drop]
          omega
  · next small =>
      refine value_of_digits ((-s.exponent).toNat - 1 + 1) 0 ?_ ?_
      · rw [List.replicate_succ]
        simp
      · show (0 : ℤ) - (List.replicate _ Digit.zero ++ s.digits).length = _
        rw [List.length_append, List.length_replicate]
        omega

/-- The numeral of a decimal stands for the same number in every layout. -/
theorem value_numeral (layout : Layout) (negative : Bool) {s : Scientific} (h : s.digits ≠ []) :
    (layout.numeral negative s).value = s.value := by
  have some := List.length_pos_iff.2 h
  unfold numeral
  split
  · exact value_positional negative s
  · refine value_of_digits 0 0 ?_ ?_
    · show s.digits.take 1 ++ s.digits.drop 1 = _
      rw [List.take_append_drop]
      simp
    · show s.exponent - (s.digits.drop 1).length = _
      rw [List.length_drop]
      omega

theorem negative_numeral (layout : Layout) (negative : Bool) (s : Scientific) :
    (layout.numeral negative s).negative = negative := by
  unfold numeral positional
  split
  · split <;> rfl
  · rfl

/-- A numeral in a layout has a fraction or an exponent. -/
theorem numeral_broken (layout : Layout) (negative : Bool) {s : Scientific} (h : s.digits ≠ []) :
    (layout.numeral negative s).fraction ≠ [] ∨ (layout.numeral negative s).exponent ≠ none := by
  unfold numeral positional
  split
  · refine .inl ?_
    split
    · simp only
      split
      · exact List.cons_ne_nil _ _
      · next some => exact fun none => some (List.isEmpty_iff.2 none)
    · exact List.append_ne_nil_of_right_ne_nil _ h
  · exact .inr (Option.some_ne_none _)

end Layout

end Ontograph
