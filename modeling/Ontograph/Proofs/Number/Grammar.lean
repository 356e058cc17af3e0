import Ontograph.Json.Token
import Ontograph.Proofs.Number.Shortest

/-!
# Numerals in JSON texts

A JSON text may hold numerals with at least one digit in the whole part and without a superfluous zero
at its beginning (`Numeral.Formed`).  The characters of such a numeral are read as that numeral.  The
numerals of integers and of doubles are such, since no number but zero begins with the digit zero.

Main statements: `Json.Token.numeral?_chars`, `Numeral.formed_ofInt` and `Binary64.formed_numeral`.
-/

namespace Ontograph

namespace Digit

/-! ## Digits -/

/-- The digits at the start of a text are taken up to its first other character. -/
theorem span_append (digits : List Digit) {rest : List Char} (stop : Stops isChar rest) :
    span (digits.map toChar ++ rest) = (digits, rest) := by
  induction digits with
  | nil =>
      cases rest with
      | nil => rfl
      | cons c rest =>
          have other := stops_cons.1 stop
          simp only [isChar, Option.isSome_eq_false_iff, Option.isNone_iff_eq_none] at other
          simp [span, other]
  | cons d digits ih => simp [span, ofChar?_toChar, ih]

theorem span_digits (digits : List Digit) : span (digits.map toChar) = (digits, []) := by
  have whole := span_append digits (stops_nil isChar)
  rwa [List.append_nil] at whole

theorem head?_ofNatAux {fuel n : Nat} (positive : 0 < n) (h : n < 2 ^ fuel) (tail : List Digit) :
    (ofNatAux fuel n tail).head? ≠ some zero := by
  induction fuel generalizing n tail with
  | zero => omega
  | succ fuel ih =>
      rw [ofNatAux]
      split
      · next small =>
          rw [List.head?_cons, Ne, Option.some.injEq, zero, Fin.ext_iff]
          show ¬ n % 10 = 0
          omega
      · next large =>
          rw [Nat.pow_succ] at h
          exact ih (by omega) (by omega) _

/-- The digits of a number that is not zero do not begin with a zero. -/
theorem head?_ofNat {n : Nat} (positive : 0 < n) : (ofNat n).head? ≠ some zero :=
  head?_ofNatAux positive Nat.lt_log2_self []

end Digit

namespace Numeral

/-! ## Well-formed numerals -/

/-- There is a whole part, and it begins with a zero only if that is all of it. -/
structure Formed (n : Numeral) : Prop where
  whole : n.whole ≠ []
  leading : n.whole.head? = some Digit.zero → n.whole.length = 1

/-- The numeral of an integer is well-formed. -/
theorem formed_ofInt (n : Int) : (ofInt n).Formed := by
  refine ⟨Digit.ofNat_ne_nil _, fun leading => ?_⟩
  by_cases zero : n.natAbs = 0
  · show (Digit.ofNat n.natAbs).length = 1
    rw [zero]
    rfl
  · exact absurd leading (Digit.head?_ofNat (Nat.pos_of_ne_zero zero))

end Numeral

/-! ## Decimals -/

/-- A decimal has a digit, and it begins with a zero only if it is zero. -/
structure Scientific.Leading (s : Scientific) : Prop where
  digits : s.digits ≠ []
  zero : s.digits.head? = some Digit.zero → s = ⟨[Digit.zero], 0⟩

namespace Layout

theorem formed_positional (negative : Bool) {s : Scientific} (h : s.Leading) :
    (positional negative s).Formed := by
  obtain ⟨d, rest, digits⟩ := List.exists_cons_of_ne_nil h.digits
  unfold positional
  split
  · refine ⟨by simp [digits], fun leading => ?_⟩
    have first : s.digits.head? = some Digit.zero := by
      simpa [digits, List.take_succ_cons] using leading
    rw [h.zero first]
    rfl
  · exact ⟨List.cons_ne_nil _ _, fun _ => rfl⟩

/-- The numeral of a decimal is well-formed in every layout. -/
theorem formed_numeral (layout : Layout) (negative : Bool) {s : Scientific} (h : s.Leading) :
    (layout.numeral negative s).Formed := by
  unfold numeral
  split
  · exact formed_positional negative h
  · obtain ⟨d, rest, digits⟩ := List.exists_cons_of_ne_nil h.digits
    exact ⟨by simp [digits], fun _ => by simp [digits]⟩

end Layout

namespace Shortest

theorem head?_trimZeros (digits : List Digit) : (trimZeros digits).head? = digits.head? := by
  cases digits <;> rfl

/-- The shortest decimal of a finite double does not begin with a zero, unless it is zero. -/
theorem leading_scientific (tie : Tie) {x : Binary64} (finite : x.isFinite = true) :
    (scientific tie x).Leading := by
  refine ⟨scientific_digits_ne_nil tie x, fun leading => ?_⟩
  by_cases zero : x.isZero = true
  · exact if_pos zero
  · have positive := value_pos tie finite
      (Nat.pos_of_ne_zero fun none => zero (decide_eq_true none))
    obtain ⟨n, e, written⟩ : ∃ n e, scientific tie x = ⟨trimZeros (Digit.ofNat n), e⟩ := by
      unfold scientific
      rw [if_neg zero]
      exact ⟨_, _, rfl⟩
    rw [written] at leading positive
    rw [head?_trimZeros] at leading
    -- Only the digits of zero begin with a zero, but the decimal of this double is not zero.
    obtain rfl : n = 0 := by
      by_contra some
      exact Digit.head?_ofNat (Nat.pos_of_ne_zero some) leading
    have none : (Scientific.mk (trimZeros (Digit.ofNat 0)) e).value = 0 := by
      show ((0 : ℕ) : ℚ) * _ = 0
      rw [Nat.cast_zero, zero_mul]
    exact absurd none positive.ne'

end Shortest

/-- The numeral of a finite double in a JSON text is well-formed. -/
theorem Binary64.formed_numeral {x : Binary64} (finite : x.isFinite = true) :
    (jsonLayout.numeral x.negative (Shortest.scientific .toEven x)).Formed :=
  jsonLayout.formed_numeral x.negative (Shortest.leading_scientific .toEven finite)

namespace Numeral

/-! ## Exponents -/

/-- The digits of a number are read as an exponent. -/
theorem exponentDigits?_ofNat (negative : Bool) (n : Nat) :
    exponentDigits? negative ((Digit.ofNat n).map Digit.toChar) =
      some (if negative then -(n : Int) else n) := by
  have number := Digit.value_ofNat n
  unfold exponentDigits?
  rw [Digit.span_digits]
  match digits : Digit.ofNat n with
  | [] => exact absurd digits (Digit.ofNat_ne_nil n)
  | d :: rest =>
      rw [digits] at number
      rw [← number]

theorem exponentPart?_exponentChars (e : Int) :
    exponentPart? (exponentChars true e) = some (some e) := by
  by_cases negative : e < 0
  · simp [exponentPart?, exponentChars, negative, exponentDigits?_ofNat, abs_of_neg negative]
  · simp [exponentPart?, exponentChars, negative, exponentDigits?_ofNat, not_lt.1 negative]

/-- The characters of an exponent in a JSON text, with its mark and its sign. -/
def exponentTail (n : Numeral) : List Char :=
  match n.exponent with
  | none => []
  | some e => exponentChars true e

theorem exponentPart?_exponentTail (n : Numeral) :
    exponentPart? n.exponentTail = some n.exponent := by
  unfold exponentTail
  split
  · next none => simp [exponentPart?, none]
  · next e some => rw [exponentPart?_exponentChars, some]

theorem stops_exponentTail (n : Numeral) : Stops Digit.isChar n.exponentTail := by
  unfold exponentTail
  split
  · exact stops_nil _
  · exact stops_cons.2 (by decide)

theorem exponentTail_ne_point (n : Numeral) (rest : List Char) : n.exponentTail ≠ '.' :: rest := by
  unfold exponentTail
  split
  · exact nofun
  · exact fun same => absurd (List.cons.inj same).1 (by decide)

/-- The characters of a fraction and an exponent do not begin with a digit. -/
theorem stops_fractionTail (n : Numeral) :
    Stops Digit.isChar (n.fractionChars ++ n.exponentTail) := by
  unfold fractionChars
  split
  · exact n.stops_exponentTail
  · exact stops_cons.2 (by decide)

theorem chars_true (n : Numeral) :
    n.chars true = (if n.negative then ['-'] else []) ++
      (n.whole.map Digit.toChar ++ (n.fractionChars ++ n.exponentTail)) := by
  have parts : n.chars true = (if n.negative then ['-'] else []) ++ n.whole.map Digit.toChar ++
      n.fractionChars ++ n.exponentTail := rfl
  rw [parts, List.append_assoc, List.append_assoc]

/-- A plus sign is the only character that is not written elsewhere. -/
theorem mem_chars_true {n : Numeral} {c : Char} (h : c ∈ n.chars true) :
    c ∈ n.chars false ∨ c = '+' := by
  have exponents : ∀ e : Int, c ∈ exponentChars true e → c ∈ exponentChars false e ∨ c = '+' := by
    intro e he
    unfold exponentChars at he ⊢
    by_cases negative : e < 0
    · rw [if_pos negative] at he ⊢
      exact .inl he
    · simp only [if_neg negative, if_true, List.mem_cons, List.mem_append] at he ⊢
      rcases he with mark | (plus | none) | digits
      · exact .inl (.inl mark)
      · exact .inr plus
      · cases none
      · exact .inl (.inr (.inr digits))
  have exponent : c ∈ n.exponentTail → c ∈ n.exponentText ∨ c = '+' := by
    unfold exponentTail exponentText
    cases n.exponent with
    | none => nofun
    | some e => exact exponents e
  rw [chars_true] at h
  rw [chars_eq]
  simp only [List.mem_append] at h ⊢
  rcases h with sign | whole | fraction | mark
  · exact .inl (.inl sign)
  · exact .inl (.inr (.inl whole))
  · exact .inl (.inr (.inr (.inl fraction)))
  · exact (exponent mark).imp_left fun rest => .inr (.inr (.inr rest))

end Numeral

namespace Json.Token

/-! ## Reading -/

/-- What comes after the sign of a well-formed numeral is read back. -/
theorem unsigned?_chars {n : Numeral} (formed : n.Formed) :
    unsigned? n.negative (n.whole.map Digit.toChar ++ (n.fractionChars ++ n.exponentTail)) =
      some n := by
  have begins : ¬ (n.whole.isEmpty || (n.whole.head? = some Digit.zero && n.whole.length ≠ 1)) = true := by
    simpa [formed.whole] using formed.leading
  have exponent := n.exponentPart?_exponentTail
  have stop := n.stops_exponentTail
  rw [unsigned?, Digit.span_append _ n.stops_fractionTail]
  simp only [begins, Bool.false_eq_true, if_false]
  unfold Numeral.fractionChars
  cases digits : n.fraction with
  | nil =>
      -- Without a fraction the exponent comes next, which does not begin with a point.
      simp only [List.isEmpty_nil, if_true, List.nil_append]
      split
      · next point => exact absurd point (n.exponentTail_ne_point _)
      · rw [exponent, ← digits]
        rfl
  | cons d rest =>
      simp only [List.isEmpty_cons, Bool.false_eq_true, if_false, List.cons_append]
      rw [Digit.span_append _ stop]
      simp only [List.isEmpty_cons, Bool.false_eq_true, if_false]
      rw [exponent, ← digits]
      rfl

/-- The characters of a well-formed numeral are read as that numeral. -/
theorem numeral?_chars {n : Numeral} (formed : n.Formed) : numeral? (n.chars true) = some n := by
  have unsigned := unsigned?_chars formed
  rw [Numeral.chars_true]
  cases negative : n.negative with
  | true =>
      rw [negative] at unsigned
      exact unsigned
  | false =>
      rw [negative] at unsigned
      simp only [Bool.false_eq_true, if_false, List.nil_append]
      unfold numeral?
      split
      · next minus =>
          match whole : n.whole with
          | [] => exact absurd whole formed.whole
          | d :: _ =>
              rw [whole] at minus
              exact absurd (List.cons.inj minus).1 d.toChar_ne_minus
      · exact unsigned

/-- The characters of a well-formed numeral are no other word. -/
theorem bare?_chars {n : Numeral} (formed : n.Formed) : bare? (n.chars true) = some (.number n) := by
  have other : ∀ c ∈ n.chars true, c ≠ 'n' ∧ c ≠ 't' ∧ c ≠ 'f' := by
    intro c hc
    rcases Numeral.mem_chars_true hc with hc | rfl
    · exact Numeral.forall_mem_chars (p := fun c => c ≠ 'n' ∧ c ≠ 't' ∧ c ≠ 'f')
        (by decide) (by decide) (by decide) (by decide) n c hc
    · decide
  have notNull : n.chars true ≠ ['n', 'u', 'l', 'l'] :=
    fun same => (other 'n' (same ▸ List.mem_cons_self)).1 rfl
  have notTrue : n.chars true ≠ ['t', 'r', 'u', 'e'] :=
    fun same => (other 't' (same ▸ List.mem_cons_self)).2.1 rfl
  have notFalse : n.chars true ≠ ['f', 'a', 'l', 's', 'e'] :=
    fun same => (other 'f' (same ▸ List.mem_cons_self)).2.2 rfl
  rw [bare?, if_neg notNull, if_neg notTrue, if_neg notFalse, numeral?_chars formed]
  rfl

end Json.Token

end Ontograph
