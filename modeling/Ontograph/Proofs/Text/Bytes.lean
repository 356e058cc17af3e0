import Mathlib.Data.List.Basic
import Mathlib.Tactic.SplitIfs

/-!
# Texts by their bytes

The characters of a text are ordered by their numbers, and so are texts, from left to right.  The bytes of
a text in UTF-8 are ordered in the same way: a character with a greater number has greater bytes, by a
longer first byte or by the first byte that differs, and no character begins with another one.

Main statement: `compare_bytes`.
-/

namespace Ontograph.Text

/-- The bytes of a text in UTF-8. -/
def bytes (s : String) : List UInt8 :=
  s.toUTF8.data.toList

theorem bytes_eq_flatMap (s : String) : bytes s = s.toList.flatMap String.utf8EncodeChar := by
  have encoded : s.toByteArray = s.toList.utf8Encode := by
    rw [← String.toByteArray_ofList, String.ofList_toList]
  rw [bytes, String.toUTF8_eq_toByteArray, encoded, List.utf8Encode, List.data_toByteArray]

/-- Equal bytes make equal texts. -/
theorem bytes_injective {s t : String} (h : bytes s = bytes t) : s = t :=
  String.toByteArray_inj.1 (ByteArray.ext (Array.toList_inj.1 h))

/-! ## Order -/

theorem compare_cons_eq_lt {m n : Nat} {u v : List UInt8} :
    compare (UInt8.ofNat m :: u) (UInt8.ofNat n :: v) = .lt ↔
      m % 256 < n % 256 ∨ m % 256 = n % 256 ∧ compare u v = .lt := by
  have first : compare (UInt8.ofNat m :: u) (UInt8.ofNat n :: v) =
      (compare (UInt8.ofNat m) (UInt8.ofNat n)).then (compare u v) :=
    List.compareLex_cons_cons
  rw [first, Ordering.then_eq_lt, Std.compare_eq_lt, UInt8.lt_iff_toNat_lt,
    Std.LawfulEqOrd.compare_eq_iff_eq, ← UInt8.toNat_inj, UInt8.toNat_ofNat', UInt8.toNat_ofNat']

/-- The bytes of the lesser character come first, whatever follows. -/
theorem compare_utf8EncodeChar {c d : Char} (h : c < d) (u v : List UInt8) :
    compare (String.utf8EncodeChar c ++ u) (String.utf8EncodeChar d ++ v) = .lt := by
  have order : c.val.toNat < d.val.toNat := h
  have bound : d.val.toNat < 0x110000 := by
    have := d.valid
    simp only [UInt32.isValidChar, Nat.isValidChar] at this
    omega
  simp only [String.utf8EncodeChar]
  split_ifs <;> simp only [List.cons_append, compare_cons_eq_lt] <;>
    simp (disch := omega) only [Nat.mod_eq_of_lt] <;> omega

theorem compare_append_left (p u v : List UInt8) : compare (p ++ u) (p ++ v) = compare u v := by
  induction p with
  | nil => rfl
  | cons b p ih =>
      refine List.compareLex_cons_cons.trans ?_
      rw [Std.ReflOrd.compare_self, Ordering.eq_then]
      exact ih

theorem compare_flatMap_of_lt {l m : List Char} (h : l < m) :
    compare (l.flatMap String.utf8EncodeChar) (m.flatMap String.utf8EncodeChar) = .lt := by
  induction h with
  | @nil d m =>
      obtain ⟨b, rest, first⟩ := List.exists_cons_of_ne_nil (String.utf8EncodeChar_ne_nil (c := d))
      rw [List.flatMap_cons, first]
      exact List.compareLex_nil_cons
  | rel h => exact compare_utf8EncodeChar h _ _
  | cons _ ih =>
      rw [List.flatMap_cons, List.flatMap_cons, compare_append_left]
      exact ih

/-- Texts are ordered by their bytes. -/
theorem compare_bytes (s t : String) : compare s t = compare (bytes s) (bytes t) := by
  have before : ∀ {s t : String}, compare s t = .lt → compare (bytes s) (bytes t) = .lt := by
    intro s t h
    have order : s < t := compareOfLessAndEq_eq_lt.1 (show compareOfLessAndEq s t = .lt from h)
    rw [bytes_eq_flatMap, bytes_eq_flatMap]
    exact compare_flatMap_of_lt order
  cases h : compare s t with
  | lt => exact (before h).symm
  | eq =>
      rw [Std.LawfulEqOrd.eq_of_compare h]
      exact Std.ReflOrd.compare_self.symm
  | gt => exact (Std.OrientedCmp.gt_of_lt (before (Std.OrientedCmp.lt_of_gt h))).symm

end Ontograph.Text
