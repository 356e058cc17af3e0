/-!
# Ascending lists

Finite sets and finite maps are kept as lists that strictly ascend: a set by its elements, a map by
its keys.  Such a list is the only one with its elements, so equality of sets is equality of lists,
and the order of a set is the order of its list.

Main statements: `mem_insert` and `mem_ofList` (what a set holds), `Strict.insert` and
`Strict.ofList` (a built set ascends), `Strict.ext` (two ascending lists with the same elements are
equal), `find?_put` (what a map holds after one entry is written).
-/

namespace Ontograph

/-! ## Sets -/

namespace Ascending

variable {α : Type} [Ord α]

/-- Each element comes strictly before all that follow it. -/
def Strict (l : List α) : Prop :=
  l.Pairwise fun a b => compare a b = .lt

/-- Puts `a` in its place; an element that is there already is not repeated. -/
def insert (a : α) : List α → List α
  | [] => [a]
  | b :: rest =>
      match compare a b with
      | .lt => a :: b :: rest
      | .eq => b :: rest
      | .gt => b :: insert a rest

/-- The set of the elements of a list. -/
def ofList (l : List α) : List α :=
  l.foldr insert []

@[simp] theorem ofList_nil : ofList ([] : List α) = [] := rfl

@[simp] theorem ofList_cons (a : α) (l : List α) : ofList (a :: l) = insert a (ofList l) := rfl

variable [Std.LawfulEqOrd α]

@[simp] theorem mem_insert {a b : α} {l : List α} : a ∈ insert b l ↔ a = b ∨ a ∈ l := by
  induction l with
  | nil => simp [insert]
  | cons c rest ih =>
      unfold insert
      split <;> rename_i h
      · simp
      · have : b = c := Std.LawfulEqOrd.eq_of_compare h
        subst this
        simp
      · simp only [List.mem_cons, ih]
        constructor
        · rintro (h | h | h) <;> simp [h]
        · rintro (h | h | h) <;> simp [h]

/-- Adding elements one after the other. -/
theorem mem_foldr_insert {a : α} {l m : List α} : a ∈ l.foldr insert m ↔ a ∈ l ∨ a ∈ m := by
  induction l with
  | nil => simp
  | cons b rest ih => simp [ih, or_assoc]

@[simp] theorem mem_ofList {a : α} {l : List α} : a ∈ ofList l ↔ a ∈ l := by
  simp [ofList, mem_foldr_insert]

/-- An ascending list has no element twice. -/
theorem Strict.nodup {l : List α} (h : Strict l) : l.Nodup :=
  h.imp fun before same => absurd before (by simp [same, Std.ReflCmp.compare_self])

variable [Std.TransOrd α]

theorem Strict.insert {a : α} {l : List α} (hl : Strict l) : Strict (insert a l) := by
  induction l with
  | nil => simp [Ascending.insert, Strict]
  | cons b rest ih =>
      have hb : ∀ c ∈ rest, compare b c = .lt := (List.pairwise_cons.1 hl).1
      have hr : Strict rest := (List.pairwise_cons.1 hl).2
      unfold Ascending.insert
      split <;> rename_i h
      · refine List.pairwise_cons.2 ⟨fun c hc => ?_, hl⟩
        rcases List.mem_cons.1 hc with rfl | hc
        · exact h
        · exact Std.TransCmp.lt_trans h (hb c hc)
      · exact hl
      · refine List.pairwise_cons.2 ⟨fun c hc => ?_, ih hr⟩
        rcases mem_insert.1 hc with rfl | hc
        · exact Std.OrientedCmp.lt_of_gt h
        · exact hb c hc

theorem Strict.foldr_insert (l : List α) {m : List α} (hm : Strict m) :
    Strict (l.foldr Ascending.insert m) := by
  induction l with
  | nil => exact hm
  | cons a rest ih => exact ih.insert

theorem Strict.ofList (l : List α) : Strict (ofList l) :=
  Strict.foldr_insert l .nil

/-- An ascending list is determined by its elements. -/
theorem Strict.ext {l m : List α} (hl : Strict l) (hm : Strict m) (h : ∀ a, a ∈ l ↔ a ∈ m) :
    l = m := by
  induction l generalizing m with
  | nil =>
      cases m with
      | nil => rfl
      | cons b rest => exact absurd ((h b).2 (by simp)) (by simp)
  | cons a l ih =>
      cases m with
      | nil => exact absurd ((h a).1 (by simp)) (by simp)
      | cons b m =>
          have hal := (List.pairwise_cons.1 hl).1
          have hbm := (List.pairwise_cons.1 hm).1
          have hab : a = b := by
            rcases List.mem_cons.1 ((h a).1 (by simp)) with hab | hab
            · exact hab
            · rcases List.mem_cons.1 ((h b).2 (by simp)) with hba | hba
              · exact hba.symm
              · exact absurd (Std.TransCmp.lt_trans (hbm a hab) (hal b hba))
                  (by simp [Std.ReflCmp.compare_self])
          subst hab
          have hnot : ∀ {n : List α}, (∀ c ∈ n, compare a c = .lt) → a ∉ n := fun hn ha =>
            absurd (hn a ha) (by simp [Std.ReflCmp.compare_self])
          congr 1
          refine ih (List.pairwise_cons.1 hl).2 (List.pairwise_cons.1 hm).2 fun c => ?_
          by_cases hc : c = a
          · subst hc
            simp [hnot hal, hnot hbm]
          · simpa [hc] using h c

/-- Sets built from lists with the same elements are equal, in whatever order and however often
the lists name them. -/
theorem ofList_congr {l m : List α} (h : ∀ a, a ∈ l ↔ a ∈ m) : ofList l = ofList m :=
  (Strict.ofList l).ext (Strict.ofList m) (by simpa using h)

/-- A list is one element as a set exactly if it has this element and no other. -/
theorem ofList_eq_singleton {a : α} {l : List α} :
    ofList l = [a] ↔ l ≠ [] ∧ ∀ b ∈ l, b = a := by
  constructor
  · intro single
    have elements : ∀ b, b ∈ l ↔ b = a := fun b => by
      rw [← mem_ofList (l := l), single, List.mem_singleton]
    exact ⟨List.ne_nil_of_mem ((elements a).2 rfl), fun b => (elements b).1⟩
  · rintro ⟨some, all⟩
    obtain ⟨b, rest, rfl⟩ := List.exists_cons_of_ne_nil some
    have elements : ∀ c, c ∈ b :: rest ↔ c ∈ [a] := fun c => by
      rw [List.mem_singleton]
      refine ⟨all c, ?_⟩
      rintro rfl
      exact all b List.mem_cons_self ▸ List.mem_cons_self
    rw [ofList_congr elements]
    rfl

/-- Building a set from an ascending list changes nothing. -/
theorem ofList_eq_self {l : List α} (h : Strict l) : ofList l = l :=
  (Strict.ofList l).ext h (by simp)

end Ascending

/-! ## Maps -/

namespace Assoc

variable {κ υ : Type} [Ord κ]

/-- Writes the entry of `key`: the old one, if there is one, is replaced. -/
def put (key : κ) (value : υ) : List (κ × υ) → List (κ × υ)
  | [] => [(key, value)]
  | (k, v) :: rest =>
      match compare key k with
      | .lt => (key, value) :: (k, v) :: rest
      | .eq => (key, value) :: rest
      | .gt => (k, v) :: put key value rest

/-- The map of a list of entries; of two entries with one key the later counts. -/
def ofList (l : List (κ × υ)) : List (κ × υ) :=
  l.foldl (fun m e => put e.1 e.2 m) []

/-- The value of `key`. -/
def find? (key : κ) : List (κ × υ) → Option υ
  | [] => none
  | (k, v) :: rest => if compare key k = .eq then some v else find? key rest

/-- The keys, ascending. -/
def keys (m : List (κ × υ)) : List κ :=
  m.map Prod.fst

/-- Changes the value of `key`, which is `start` as long as it has none. -/
def adjust (key : κ) (start : υ) (change : υ → υ) (m : List (κ × υ)) : List (κ × υ) :=
  put key (change ((find? key m).getD start)) m

/-- Each key comes strictly before all that follow it. -/
def Strict (m : List (κ × υ)) : Prop :=
  m.Pairwise fun a b => compare a.1 b.1 = .lt

variable [Std.TransOrd κ]

/-- Reading after writing one entry. -/
theorem find?_put {key k : κ} {value : υ} {m : List (κ × υ)} :
    find? k (put key value m) = if compare k key = .eq then some value else find? k m := by
  induction m with
  | nil => rfl
  | cons e rest ih =>
      obtain ⟨k', v'⟩ := e
      unfold put
      split <;> rename_i h
      · rfl
      · by_cases hk : compare k key = .eq
        · simp [find?, hk]
        · have : compare k k' ≠ .eq := fun hk' =>
            hk (Std.TransCmp.eq_trans hk' (Std.OrientedCmp.eq_symm h))
          simp [find?, hk, this]
      · by_cases hk : compare k key = .eq
        · have : compare k k' ≠ .eq := fun hk' => by
            rw [Std.TransCmp.congr_left hk] at hk'
            simp [h] at hk'
          simp [find?, hk, this, ih]
        · simp [find?, hk, ih]

end Assoc

end Ontograph
