import Mathlib.Algebra.Ring.Nat
import Mathlib.Data.List.Basic
import Ontograph.Number.Decimal
import Ontograph.Proofs.Text.Words

/-!
# Numerals read back

The characters of a numeral say what it is: the digits of a number determine it, and sign, whole part,
fraction and exponent end where the next part begins.

Main statements: `Digit.value_ofNat` (the digits of a number), `Numeral.chars_inj` (the characters
determine the numeral).
-/

namespace Ontograph

namespace Digit

/-! ## Digits -/

/-- Whether a character is a digit. -/
def isChar (c : Char) : Bool :=
  (ofChar? c).isSome

theorem isChar_toChar (d : Digit) : isChar d.toChar = true := by
  rw [isChar, ofChar?_toChar]
  rfl

theorem toChar_injective : Function.Injective toChar := by
  intro d d' same
  have read := congrArg ofChar? same
  rw [ofChar?_toChar, ofChar?_toChar] at read
  exact Option.some.inj read

theorem isChar_of_mem {digits : List Digit} : ∀ c ∈ digits.map toChar, isChar c := by
  intro c hc
  obtain ⟨d, -, rfl⟩ := List.mem_map.1 hc
  exact isChar_toChar d

/-- A run of digits ends where the digits do. -/
theorem eq_of_digits {v w : List Digit} {s t : List Char} (hs : Stops isChar s) (ht : Stops isChar t)
    (h : v.map toChar ++ s = w.map toChar ++ t) : v = w ∧ s = t := by
  obtain ⟨same, rest⟩ := eq_of_word isChar_of_mem isChar_of_mem hs ht h
  exact ⟨toChar_injective.list_map same, rest⟩

/-- The digits of a number go before those that are there. -/
theorem foldl_ofNatAux {fuel n : Nat} (h : n < 2 ^ fuel) (tail : List Digit) :
    (ofNatAux fuel n tail).foldl (fun n d => 10 * n + d.val) 0 =
      tail.foldl (fun n d => 10 * n + d.val) n := by
  induction fuel generalizing n tail with
  | zero =>
      obtain rfl : n = 0 := by omega
      rfl
  | succ fuel ih =>
      rw [ofNatAux]
      split
      · next small =>
          show tail.foldl _ (10 * 0 + n % 10) = _
          rw [Nat.mod_eq_of_lt small, Nat.mul_zero, Nat.zero_add]
      · next large =>
          have smaller : n / 10 < 2 ^ fuel := by
            rw [Nat.pow_succ] at h
            omega
          rw [ih smaller]
          show tail.foldl _ (10 * (n / 10) + n % 10) = _
          rw [Nat.div_add_mod]

theorem value_ofNat (n : Nat) : value (ofNat n) = n :=
  foldl_ofNatAux Nat.lt_log2_self []

theorem ofNatAux_ne_nil (fuel n : Nat) {tail : List Digit} (h : tail ≠ []) :
    ofNatAux fuel n tail ≠ [] := by
  induction fuel generalizing n tail with
  | zero => exact h
  | succ fuel ih =>
      rw [ofNatAux]
      split
      · exact List.cons_ne_nil _ _
      · exact ih _ (List.cons_ne_nil _ _)

/-- Every number has a digit. -/
theorem ofNat_ne_nil (n : Nat) : ofNat n ≠ [] := by
  rw [ofNat, ofNatAux]
  split
  · exact List.cons_ne_nil _ _
  · exact ofNatAux_ne_nil _ _ (List.cons_ne_nil _ _)

theorem ofNat_inj {m n : Nat} : ofNat m = ofNat n ↔ m = n := by
  constructor
  · intro same
    rw [← value_ofNat m, same, value_ofNat]
  · exact congrArg ofNat

theorem toChar_ne_minus (d : Digit) : d.toChar ≠ '-' := by
  revert d
  decide

end Digit

namespace Numeral

/-! ## Numerals -/

/-- The characters of the fraction, with its point. -/
def fractionChars (n : Numeral) : List Char :=
  if n.fraction.isEmpty then [] else '.' :: n.fraction.map Digit.toChar

/-- The characters of the exponent, with its mark. -/
def exponentText (n : Numeral) : List Char :=
  match n.exponent with
  | none => []
  | some e => exponentChars false e

theorem chars_eq (n : Numeral) :
    n.chars false = (if n.negative then ['-'] else []) ++
      (n.whole.map Digit.toChar ++ (n.fractionChars ++ n.exponentText)) := by
  have parts : n.chars false = (if n.negative then ['-'] else []) ++ n.whole.map Digit.toChar ++
      n.fractionChars ++ n.exponentText := rfl
  rw [parts, List.append_assoc, List.append_assoc]

theorem exponentChars_inj {e e' : Int} (h : exponentChars false e = exponentChars false e') :
    e = e' := by
  have plain : ∀ n : Nat, '-' ∉ (Digit.ofNat n).map Digit.toChar := by
    intro n inside
    obtain ⟨d, -, same⟩ := List.mem_map.1 inside
    exact d.toChar_ne_minus same
  have digits : ∀ {m n : Nat}, (Digit.ofNat m).map Digit.toChar = (Digit.ofNat n).map Digit.toChar →
      m = n :=
    fun same => Digit.ofNat_inj.1 (Digit.toChar_injective.list_map same)
  obtain ⟨-, h⟩ := List.cons.inj h
  by_cases neg : e < 0 <;> by_cases neg' : e' < 0
  · simp only [neg, neg', if_true] at h
    have same := digits (List.cons.inj h).2
    omega
  · simp only [neg, neg', if_true, if_false] at h
    have sign : '-' ∈ ['-'] ++ (Digit.ofNat e.natAbs).map Digit.toChar := List.mem_cons_self
    rw [h] at sign
    exact absurd sign (plain e'.natAbs)
  · simp only [neg, neg', if_true, if_false] at h
    have sign : '-' ∈ ['-'] ++ (Digit.ofNat e'.natAbs).map Digit.toChar := List.mem_cons_self
    rw [← h] at sign
    exact absurd sign (plain e.natAbs)
  · simp only [neg, neg', if_false] at h
    have same := digits h
    omega

theorem exponentText_inj {m n : Numeral} (h : m.exponentText = n.exponentText) :
    m.exponent = n.exponent := by
  unfold exponentText at h
  cases hm : m.exponent with
  | none =>
      cases hn : n.exponent with
      | none => rfl
      | some e' =>
          rw [hm, hn] at h
          cases h
  | some e =>
      cases hn : n.exponent with
      | none =>
          rw [hm, hn] at h
          cases h
      | some e' =>
          rw [hm, hn] at h
          exact congrArg some (exponentChars_inj h)

theorem stops_exponentText (n : Numeral) : Stops Digit.isChar n.exponentText := by
  unfold exponentText
  split
  · exact stops_nil _
  · exact stops_cons.2 (by decide)

theorem stops_fractionChars (n : Numeral) :
    Stops Digit.isChar (n.fractionChars ++ n.exponentText) := by
  unfold fractionChars
  split
  · exact n.stops_exponentText
  · exact stops_cons.2 (by decide)

/-- A number whose text has no fraction is not one whose text has a fraction. -/
theorem exponentText_ne_point (n : Numeral) (rest : List Char) : n.exponentText ≠ '.' :: rest := by
  intro same
  unfold exponentText at same
  split at same
  · cases same
  · exact absurd (List.cons.inj same).1 (by decide)

theorem fraction_inj {m n : Numeral}
    (h : m.fractionChars ++ m.exponentText = n.fractionChars ++ n.exponentText) :
    m.fraction = n.fraction ∧ m.exponentText = n.exponentText := by
  unfold fractionChars at h
  cases hm : m.fraction with
  | nil =>
      cases hn : n.fraction with
      | nil =>
          rw [hm, hn] at h
          exact ⟨rfl, h⟩
      | cons d rest =>
          rw [hm, hn] at h
          exact absurd h (m.exponentText_ne_point _)
  | cons d rest =>
      cases hn : n.fraction with
      | nil =>
          rw [hm, hn] at h
          exact absurd h.symm (n.exponentText_ne_point _)
      | cons d' rest' =>
          rw [hm, hn] at h
          exact Digit.eq_of_digits m.stops_exponentText n.stops_exponentText (List.cons.inj h).2

/-- A number does not begin with a minus sign after its sign. -/
theorem whole_ne_minus (n : Numeral) (rest : List Char) :
    n.whole.map Digit.toChar ++ (n.fractionChars ++ n.exponentText) ≠ '-' :: rest := by
  cases n.whole with
  | nil =>
      show n.fractionChars ++ n.exponentText ≠ '-' :: rest
      unfold fractionChars exponentText
      intro same
      split at same <;> split at same <;> simp [exponentChars] at same
  | cons d whole =>
      intro same
      exact d.toChar_ne_minus (List.cons.inj same).1

/-- The characters determine the numeral. -/
theorem chars_inj {m n : Numeral} (h : m.chars false = n.chars false) : m = n := by
  rw [chars_eq, chars_eq] at h
  have signs : m.negative = n.negative := by
    cases hm : m.negative with
    | false =>
        cases hn : n.negative with
        | false => rfl
        | true =>
            rw [hm, hn] at h
            exact absurd h (m.whole_ne_minus _)
    | true =>
        cases hn : n.negative with
        | false =>
            rw [hm, hn] at h
            exact absurd h.symm (n.whole_ne_minus _)
        | true => rfl
  rw [signs] at h
  obtain ⟨whole, rest⟩ := Digit.eq_of_digits m.stops_fractionChars n.stops_fractionChars
    (List.append_cancel_left h)
  obtain ⟨fraction, exponent⟩ := fraction_inj rest
  have exponents := exponentText_inj exponent
  cases m
  cases n
  rw [mk.injEq]
  exact ⟨signs, whole, fraction, exponents⟩

/-- The numeral of an integer determines it. -/
theorem ofInt_inj {m n : Int} (h : ofInt m = ofInt n) : m = n := by
  have sign : decide (m < 0) = decide (n < 0) := congrArg negative h
  have size := Digit.ofNat_inj.1 (congrArg whole h)
  have signs : m < 0 ↔ n < 0 := decide_eq_decide.1 sign
  omega

/-! ## Characters -/

/-- What holds of digits, the minus sign, the point and the mark of exponents holds of every character
of a numeral. -/
theorem forall_mem_chars {p : Char → Prop} (digit : ∀ d : Digit, p d.toChar) (minus : p '-')
    (point : p '.') (mark : p 'e') (n : Numeral) : ∀ c ∈ n.chars false, p c := by
  have digits : ∀ l : List Digit, ∀ c ∈ l.map Digit.toChar, p c := by
    intro l c hc
    obtain ⟨d, -, rfl⟩ := List.mem_map.1 hc
    exact digit d
  have signs : ∀ b : Bool, ∀ c ∈ (if b then ['-'] else []), p c := by
    intro b c hc
    cases b with
    | false => cases hc
    | true => exact List.mem_singleton.1 hc ▸ minus
  intro c hc
  rw [chars_eq] at hc
  rcases List.mem_append.1 hc with sign | hc
  · exact signs _ c sign
  rcases List.mem_append.1 hc with whole | hc
  · exact digits _ c whole
  rcases List.mem_append.1 hc with fraction | exponent
  · unfold fractionChars at fraction
    split at fraction
    · cases fraction
    · rcases List.mem_cons.1 fraction with rfl | fraction
      · exact point
      · exact digits _ c fraction
  · unfold exponentText exponentChars at exponent
    split at exponent
    · cases exponent
    · next e _ =>
        rcases List.mem_cons.1 exponent with rfl | exponent
        · exact mark
        rcases List.mem_append.1 exponent with sign | exponent
        · exact signs (e < 0) c (by simpa using sign)
        · exact digits _ c exponent

end Numeral

end Ontograph
