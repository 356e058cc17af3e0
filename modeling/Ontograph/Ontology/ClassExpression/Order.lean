import Ontograph.Ontology.ClassExpression

/-!
# Expressions in order

The order of expressions is a lawful linear order, so sets of expressions are ascending lists like all
others.

Main statements: the instances `Std.TransOrd` and `Std.LawfulEqOrd` of `ClassExpression`.  Equality of
expressions is decided by comparing them.
-/

namespace Ontograph

theorem Restriction.index_injective {r s : Restriction} (h : r.index = s.index) : r = s := by
  cases r <;> cases s <;> first | rfl | cases h

namespace ClassExpression

/-! ## Equality -/

theorem cmpList_self {l : List ClassExpression} (h : ∀ e ∈ l, cmp e e = .eq) :
    cmpList l l = .eq := by
  induction l with
  | nil => rfl
  | cons a rest ih =>
      rw [cmpList, h a List.mem_cons_self, Ordering.eq_then]
      exact ih fun e he => h e (List.mem_cons_of_mem _ he)

theorem cmp_self (e : ClassExpression) : cmp e e = .eq := by
  induction e using induction with
  | intersection _ ih => exact cmpList_self ih
  | union _ ih => exact cmpList_self ih
  | complement _ ih => exact ih
  | objectSome _ _ ih => simpa [cmp] using ih
  | objectAll _ _ ih => simpa [cmp] using ih
  | objectCardinality _ _ _ _ ih => simpa [cmp] using ih
  | _ => simp [cmp]

theorem eq_of_cmpList {l m : List ClassExpression} (h : ∀ a ∈ l, ∀ b, cmp a b = .eq → a = b)
    (hlm : cmpList l m = .eq) : l = m := by
  induction l generalizing m with
  | nil => cases m with
    | nil => rfl
    | cons => cases hlm
  | cons a l ih => cases m with
    | nil => cases hlm
    | cons b m =>
        have ⟨hab, hrest⟩ := Ordering.then_eq_eq.1 hlm
        rw [h a List.mem_cons_self b hab, ih (fun e he => h e (List.mem_cons_of_mem _ he)) hrest]

theorem eq_of_cmp {a b : ClassExpression} (h : cmp a b = .eq) : a = b := by
  induction a using induction generalizing b <;> cases b <;>
    simp only [cmp, index, Ordering.then_eq_eq, Std.LawfulEqOrd.compare_eq_iff_eq] at h
  case intersection.intersection ih _ => rw [eq_of_cmpList (fun e he _ => ih e he) h]
  case union.union ih _ => rw [eq_of_cmpList (fun e he _ => ih e he) h]
  case complement.complement ih _ => rw [ih h]
  case objectSome.objectSome ih _ _ => rw [h.1, ih h.2]
  case objectAll.objectAll ih _ _ => rw [h.1, ih h.2]
  case objectCardinality.objectCardinality ih _ _ _ _ =>
    rw [Restriction.index_injective h.1, h.2.1, h.2.2.1, ih h.2.2.2]
  case named.named => rw [h]
  case objectHas.objectHas => rw [h.1, h.2]
  case dataSome.dataSome => rw [h]
  case dataHas.dataHas => rw [h.1, h.2]
  case dataAll.dataAll => rw [h.1, h.2]
  all_goals first | rfl | exact absurd h (by decide)

/-! ## Both directions -/

theorem cmpList_swap {l m : List ClassExpression}
    (h : ∀ a ∈ l, ∀ b, cmp a b = (cmp b a).swap) : cmpList l m = (cmpList m l).swap := by
  induction l generalizing m with
  | nil => cases m <;> rfl
  | cons a l ih => cases m with
    | nil => rfl
    | cons b m =>
        rw [cmpList, cmpList, Ordering.swap_then, h a List.mem_cons_self b,
          ih fun e he => h e (List.mem_cons_of_mem _ he)]

theorem cmp_swap (a b : ClassExpression) : cmp a b = (cmp b a).swap := by
  induction a using induction generalizing b <;> cases b <;>
    simp only [cmp, index, Ordering.swap_then]
  case intersection.intersection ih _ => exact cmpList_swap ih
  case union.union ih _ => exact cmpList_swap ih
  case complement.complement ih _ => exact ih _
  case objectSome.objectSome ih _ _ => rw [← ih, ← Std.OrientedOrd.eq_swap]
  case objectAll.objectAll ih _ _ => rw [← ih, ← Std.OrientedOrd.eq_swap]
  case objectCardinality.objectCardinality ih _ _ _ _ =>
    rw [← ih, ← Std.OrientedOrd.eq_swap, ← Std.OrientedOrd.eq_swap, ← Std.OrientedOrd.eq_swap]
  case objectHas.objectHas => rw [← Std.OrientedOrd.eq_swap, ← Std.OrientedOrd.eq_swap]
  case dataHas.dataHas => rw [← Std.OrientedOrd.eq_swap, ← Std.OrientedOrd.eq_swap]
  case dataAll.dataAll => rw [← Std.OrientedOrd.eq_swap, ← Std.OrientedOrd.eq_swap]
  all_goals first | rfl | exact Std.OrientedOrd.eq_swap

/-! ## Transitivity -/

/-- Comparing by two criteria in turn is transitive if both are. -/
theorem isLE_then_trans {α : Type} [Ord α] [Std.TransOrd α] {x y z : α} {p q r : Ordering}
    (second : p.isLE → q.isLE → r.isLE) (hxy : ((compare x y).then p).isLE)
    (hyz : ((compare y z).then q).isLE) : ((compare x z).then r).isLE := by
  rcases Ordering.isLE_then_iff_or.1 hxy with hxy | ⟨hxy, hp⟩
  · rcases Ordering.isLE_then_iff_or.1 hyz with hyz | ⟨hyz, _⟩
    · rw [Std.TransCmp.lt_trans hxy hyz]
      rfl
    · rw [Std.TransCmp.lt_of_lt_of_eq hxy hyz]
      rfl
  · rw [Std.TransCmp.congr_left hxy]
    rcases Ordering.isLE_then_iff_or.1 hyz with hyz | ⟨hyz, hq⟩
    · rw [hyz]
      rfl
    · rw [hyz, Ordering.eq_then]
      exact second hp hq

theorem cmpList_trans {l m n : List ClassExpression}
    (h : ∀ a ∈ l, ∀ b c, (cmp a b).isLE → (cmp b c).isLE → (cmp a c).isLE)
    (hlm : (cmpList l m).isLE) (hmn : (cmpList m n).isLE) : (cmpList l n).isLE := by
  induction l generalizing m n with
  | nil => cases n <;> rfl
  | cons a l ih =>
      cases m with
      | nil => cases hlm
      | cons b m =>
          cases n with
          | nil => cases hmn
          | cons c n =>
              have rest := ih (fun e he => h e (List.mem_cons_of_mem _ he)) (m := m) (n := n)
              rw [cmpList] at hlm hmn ⊢
              rcases Ordering.isLE_then_iff_or.1 hlm with hab | ⟨hab, hl⟩
              · rcases Ordering.isLE_then_iff_or.1 hmn with hbc | ⟨hbc, _⟩
                · have hac := h a List.mem_cons_self b c (by rw [hab]; rfl) (by rw [hbc]; rfl)
                  cases hc : cmp a c with
                  | lt => rfl
                  | gt => rw [hc] at hac; cases hac
                  | eq =>
                      obtain rfl := eq_of_cmp hc
                      rw [cmp_swap, hbc] at hab
                      cases hab
                · rw [← eq_of_cmp hbc, hab]
                  rfl
              · rw [eq_of_cmp hab]
                rcases Ordering.isLE_then_iff_or.1 hmn with hbc | ⟨hbc, hm⟩
                · rw [hbc]
                  rfl
                · rw [hbc, Ordering.eq_then]
                  exact rest hl hm

theorem cmp_of_index_lt {a b : ClassExpression} (h : a.index < b.index) : cmp a b = .lt := by
  cases a <;> cases b <;> simp only [index] at h <;> first | rfl | omega

theorem index_le_of_isLE {a b : ClassExpression} (h : (cmp a b).isLE) : a.index ≤ b.index :=
  Nat.le_of_not_lt fun hlt => by
    rw [cmp_swap, cmp_of_index_lt hlt] at h
    cases h

/-- Of three expressions in order, the first and the last one are in strict order, or all three are
of one kind. -/
theorem lt_or_index_eq {a b c : ClassExpression} (hab : (cmp a b).isLE) (hbc : (cmp b c).isLE) :
    cmp a c = .lt ∨ a.index = b.index ∧ a.index = c.index := by
  have h₁ := index_le_of_isLE hab
  have h₂ := index_le_of_isLE hbc
  by_cases hac : a.index < c.index
  · exact .inl (cmp_of_index_lt hac)
  · exact .inr ⟨by omega, by omega⟩

theorem cmp_trans {a b c : ClassExpression} (hab : (cmp a b).isLE) (hbc : (cmp b c).isLE) :
    (cmp a c).isLE := by
  induction a using induction generalizing b c <;>
    rcases lt_or_index_eq hab hbc with h | ⟨hb, hc⟩ <;> first | (rw [h]; rfl) | skip
  all_goals cases b <;> first | (simp [index] at hb; done) | clear hb
  all_goals cases c <;> first | (simp [index] at hc; done) | clear hc
  all_goals simp only [cmp] at hab hbc ⊢
  case intersection.inr.intersection.intersection ih _ _ =>
    exact cmpList_trans (fun a ha _ _ => ih a ha) hab hbc
  case union.inr.union.union ih _ _ => exact cmpList_trans (fun a ha _ _ => ih a ha) hab hbc
  case complement.inr.complement.complement ih _ _ => exact ih hab hbc
  case objectSome.inr.objectSome.objectSome ih _ _ _ _ => exact isLE_then_trans ih hab hbc
  case objectAll.inr.objectAll.objectAll ih _ _ _ _ => exact isLE_then_trans ih hab hbc
  case objectCardinality.inr.objectCardinality.objectCardinality ih _ _ _ _ _ _ _ _ =>
    exact isLE_then_trans (isLE_then_trans (isLE_then_trans ih)) hab hbc
  all_goals first
    | exact Std.TransOrd.isLE_trans hab hbc
    | exact isLE_then_trans Std.TransOrd.isLE_trans hab hbc

/-! ## Instances -/

theorem compare_def (a b : ClassExpression) : compare a b = cmp a b := rfl

instance : Std.LawfulEqOrd ClassExpression where
  compare_self := cmp_self _
  eq_of_compare := eq_of_cmp

instance : Std.TransOrd ClassExpression where
  eq_swap := cmp_swap _ _
  isLE_trans := cmp_trans

instance : DecidableEq ClassExpression := fun a b =>
  decidable_of_iff (cmp a b = .eq) ⟨eq_of_cmp, fun h => h ▸ cmp_self a⟩

end ClassExpression

end Ontograph
