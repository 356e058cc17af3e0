import Mathlib.Data.List.Nodup
import Ontograph.Proofs.Query.Draft
import Ontograph.Proofs.Text.Words

/-!
# Names in patterns

New nodes are numbered, and the sets of members of the classes on a node are numbered after the name of the
node.  A name tells what it was made of (`nodeName_inj`, `setName_inj`), so among the names that a walk may
give out next there is always one that is free (`fresh_notMem`, `freshSet_notMem`).

For a draft only the name of the node to return is taken, which the caller may have chosen.  That is enough:
no name of a node or of a set is that one, and no two of them are the same.

Main statements: `Context.firstFree_spec`, `Context.fresh_notMem`, `Context.freshSet_notMem`,
`Draft.setName_inj` and `Draft.setName_ne`.
-/

namespace Ontograph

namespace Context

/-! ## What names are made of -/

/-- The digits determine the number. -/
theorem repr_inj {m n : Nat} : m.repr = n.repr ↔ m = n := by
  refine ⟨fun same => ?_, congrArg Nat.repr⟩
  have digits := congrArg String.toList same
  rw [Nat.toList_repr, Nat.toList_repr] at digits
  have value := congrArg (Nat.ofDigitChars 10 · 0) digits
  simpa only [Nat.ofDigitChars_ten_toDigits] using value

theorem nodeName_inj {m n : Nat} : nodeName m = nodeName n ↔ m = n := by
  rw [nodeName, nodeName, String.append_right_inj, repr_inj]

/-- The name of a set is that of the node, a mark, the index and underscores. -/
theorem toList_setName (node : String) (i n : Nat) : (setName node i n).toList =
    (node.toList ++ ['_', 's', 'e']) ++ 't' :: (i.repr.toList ++ List.replicate n '_') := by
  simp [setName]

theorem letter_notMem_suffix (i n : Nat) : 't' ∉ i.repr.toList ++ List.replicate n '_' := by
  intro h
  rcases List.mem_append.1 h with digit | underscore
  · rw [Nat.toList_repr] at digit
    exact absurd (Nat.isDigit_of_mem_toDigits (by decide) (by decide) digit) (by decide)
  · exact absurd (List.eq_of_mem_replicate underscore) (by decide)

/-- Digits end where underscores begin. -/
theorem suffix_inj {i j m n : Nat} (h : i.repr.toList ++ List.replicate m '_' =
    j.repr.toList ++ List.replicate n '_') : i = j ∧ m = n := by
  have digits : ∀ k : Nat, ∀ c ∈ k.repr.toList, c.isDigit = true := by
    intro k c hc
    rw [Nat.toList_repr] at hc
    exact Nat.isDigit_of_mem_toDigits (by decide) (by decide) hc
  have ends : ∀ k : Nat, Stops Char.isDigit (List.replicate k '_') := by
    intro k
    cases k with
    | zero => exact stops_nil _
    | succ k => exact stops_cons.2 (by decide)
  obtain ⟨indices, underscores⟩ := eq_of_word (digits i) (digits j) (ends m) (ends n) h
  have lengths := congrArg List.length underscores
  rw [List.length_replicate, List.length_replicate] at lengths
  exact ⟨repr_inj.1 (String.toList_inj.1 indices), lengths⟩

/-- The name of a set determines the node, the index and the underscores. -/
theorem setName_inj {v w : String} {i j m n : Nat} (h : setName v i m = setName w j n) :
    v = w ∧ i = j ∧ m = n := by
  have lists := congrArg String.toList h
  rw [toList_setName, toList_setName] at lists
  obtain ⟨nodes, suffixes⟩ :=
    eq_of_append_cons_eq lists (letter_notMem_suffix i m) (letter_notMem_suffix j n)
  exact ⟨String.toList_inj.1 (List.append_cancel_right nodes), suffix_inj suffixes⟩

/-- The name of a set is not a numbered one. -/
theorem setName_ne_nodeName (node : String) (i m n : Nat) : setName node i m ≠ nodeName n := by
  intro same
  have underscore : '_' ∈ (setName node i m).toList := by
    rw [toList_setName]
    simp
  rw [same, nodeName, String.toList_append, Nat.toList_repr] at underscore
  rcases List.mem_append.1 underscore with letter | digit
  · exact absurd letter (by decide)
  · exact Nat.underscore_not_in_toDigits digit

/-! ## Free names -/

section

variable {used : List String} {names : Nat → String}

/-- Of names that are all different the first free one is free, and those before it are taken. -/
theorem firstFree_spec (different : Function.Injective names) :
    names (firstFree used names) ∉ used ∧ ∀ k < firstFree used names, names k ∈ used := by
  unfold firstFree
  cases found : (List.range (used.length + 1)).find? fun k => names k ∉ used with
  | none =>
      -- One more names than there are places cannot all be taken.
      have taken : ∀ k ∈ List.range (used.length + 1), names k ∈ used := by
        intro k hk
        simpa using List.find?_eq_none.1 found k hk
      have inside : (List.range (used.length + 1)).map names ⊆ used := by
        intro name hn
        obtain ⟨k, hk, rfl⟩ := List.mem_map.1 hn
        exact taken k hk
      have fits := (List.nodup_range.map different).length_le_of_subset inside
      rw [List.length_map, List.length_range] at fits
      exact absurd fits (Nat.not_succ_le_self _)
  | some n =>
      obtain ⟨free, -, before⟩ := List.find?_range_eq_some.1 found
      exact ⟨by simpa using free, fun k hk => by simpa using before k hk⟩

/-- The first free name is the one that is free and comes after taken ones. -/
theorem firstFree_eq (different : Function.Injective names) {n : Nat} (free : names n ∉ used)
    (taken : ∀ k < n, names k ∈ used) : firstFree used names = n := by
  obtain ⟨found, before⟩ : names (firstFree used names) ∉ used ∧
      ∀ k < firstFree used names, names k ∈ used := firstFree_spec different
  rcases Nat.lt_trichotomy (firstFree used names) n with less | same | more
  · exact absurd (taken _ less) found
  · exact same
  · exact absurd (before n more) free

/-- Where one name alone may be taken, the first or the second of the names is free. -/
theorem firstFree_of_target (different : Function.Injective names) {target : String}
    (taken : ∀ k, names k ∈ used ↔ names k = target) :
    firstFree used names = if names 0 = target then 1 else 0 := by
  split
  · next isTarget =>
      refine firstFree_eq different (fun again => ?_) fun k hk => ?_
      · exact absurd (different (((taken 1).1 again).trans isTarget.symm)) (by decide)
      · obtain rfl := Nat.lt_one_iff.1 hk
        exact (taken 0).2 isTarget
  · next free => exact firstFree_eq different ((taken 0).not.2 free) fun k hk => absurd hk k.not_lt_zero

end

theorem injective_nodeName_add (next : Nat) : Function.Injective fun k => nodeName (next + k) :=
  fun _ _ same => Nat.add_left_cancel (nodeName_inj.1 same)

theorem injective_setName (node : String) (index : Nat) : Function.Injective (setName node index) :=
  fun _ _ same => (setName_inj same).2.2

/-- A new node has a new name. -/
theorem fresh_notMem (c : Context) : c.fresh.1 ∉ c.used :=
  (firstFree_spec (injective_nodeName_add c.next)).1

/-- A new set has a new name. -/
theorem freshSet_notMem (c : Context) (node : String) (index : Nat) :
    (c.freshSet node index).1 ∉ c.used :=
  (firstFree_spec (injective_setName node index)).1

end Context

namespace Draft

open Context (nodeName nodeName_inj)

/-! ## Names of nodes in drafts -/

theorem le_freeNumber (target : String) (n : Nat) : n ≤ freeNumber target n := by
  unfold freeNumber
  split
  · exact n.le_succ
  · exact n.le_refl

theorem nodeName_freeNumber_ne (target : String) (n : Nat) :
    nodeName (freeNumber target n) ≠ target := by
  unfold freeNumber
  split
  · next taken =>
      rw [← taken, Ne, nodeName_inj]
      exact n.succ_ne_self
  · next free => exact free

/-- A name of a node under a target: the target itself, or one with a number. -/
def IsNode (target name : String) : Prop :=
  name = target ∨ ∃ n, name = nodeName n

/-! ## Names of sets in drafts -/

/-- The name of a set in a draft has an underscore if the target has the name without one. -/
theorem setName_eq (target node : String) (i : Nat) :
    setName target node i =
      Context.setName node i (if Context.setName node i 0 = target then 1 else 0) := by
  have plain : Context.setName node i 0 = node ++ "_set" ++ i.repr := String.append_empty
  have longer : Context.setName node i 1 = node ++ "_set" ++ i.repr ++ "_" := rfl
  unfold setName
  simp only
  rw [← plain]
  split
  · rw [longer, plain]
  · rfl

/-- The name of a set determines the node and the index. -/
theorem setName_inj {target v w : String} {i j : Nat} (h : setName target v i = setName target w j) :
    v = w ∧ i = j := by
  rw [setName_eq, setName_eq] at h
  exact (Context.setName_inj h).imp_right And.left

/-- The name of a set is not the name of a node. -/
theorem setName_ne {target node name : String} {i : Nat} (h : IsNode target name) :
    setName target node i ≠ name := by
  rw [setName_eq]
  rcases h with rfl | ⟨n, rfl⟩
  · split
    · next taken =>
        intro same
        exact absurd (Context.setName_inj (same.trans taken.symm)).2.2 (by decide)
    · next free => exact free
  · exact Context.setName_ne_nodeName node i _ n

end Draft

end Ontograph
