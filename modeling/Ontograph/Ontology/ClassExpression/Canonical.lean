import Ontograph.Ontology.ClassExpression.Order

/-!
# Canonical expressions

An expression is canonical if the operands of all intersections and unions in it ascend strictly, so
that these lists are sets.  The constructors `intersectionOf` and `unionOf` and the normal form give
canonical expressions only.

Main statements: `Canonical.intersectionOf`, `Canonical.unionOf` and `canonical_normalized`.
-/

namespace Ontograph

namespace ClassExpression

mutual

/-- The operands of every intersection and union ascend strictly. -/
def Canonical : ClassExpression → Prop
  | intersection operands => Ascending.Strict operands ∧ CanonicalList operands
  | union operands => Ascending.Strict operands ∧ CanonicalList operands
  | complement operand => operand.Canonical
  | objectSome _ filler => filler.Canonical
  | objectAll _ filler => filler.Canonical
  | objectCardinality _ _ _ filler => filler.Canonical
  | _ => True

/-- All operands are canonical. -/
def CanonicalList : List ClassExpression → Prop
  | [] => True
  | operand :: rest => operand.Canonical ∧ CanonicalList rest

end

theorem canonicalList_iff {l : List ClassExpression} :
    CanonicalList l ↔ ∀ e ∈ l, e.Canonical := by
  induction l with
  | nil => exact ⟨fun _ _ h => absurd h List.not_mem_nil, fun _ => trivial⟩
  | cons a rest ih => rw [CanonicalList, ih, List.forall_mem_cons]

/-! ## Constructors -/

theorem canonical_ofUri (uri : Uri) : (ofUri uri).Canonical := by
  unfold ofUri
  split
  · trivial
  · split <;> trivial

/-- The elements of a set are canonical if those of the list are from which it is made. -/
theorem CanonicalList.ofList {l : List ClassExpression} (h : ∀ e ∈ l, e.Canonical) :
    CanonicalList (Ascending.ofList l) :=
  canonicalList_iff.2 fun e he => h e (Ascending.mem_ofList.1 he)

theorem Canonical.intersectionOf {l : List ClassExpression} (h : ∀ e ∈ l, e.Canonical) :
    (intersectionOf l).Canonical := by
  have members := CanonicalList.ofList h
  unfold ClassExpression.intersectionOf
  split
  · trivial
  · rename_i e heq
    rw [heq] at members
    exact members.1
  · exact ⟨Ascending.Strict.ofList l, members⟩

theorem Canonical.unionOf {l : List ClassExpression} (h : ∀ e ∈ l, e.Canonical) :
    (unionOf l).Canonical := by
  have members := CanonicalList.ofList h
  unfold ClassExpression.unionOf
  split
  · trivial
  · rename_i e heq
    rw [heq] at members
    exact members.1
  · exact ⟨Ascending.Strict.ofList l, members⟩

/-! ## The normal form -/

theorem normalizedList_eq_map (l : List ClassExpression) :
    normalizedList l = l.map normalized := by
  induction l with
  | nil => rfl
  | cons a rest ih => rw [normalizedList, ih, List.map_cons]

/-- The normal form of any expression is canonical. -/
theorem canonical_normalized (e : ClassExpression) : e.normalized.Canonical := by
  induction e using induction with
  | named uri => exact canonical_ofUri uri
  | intersection operands ih =>
      rw [normalized, normalizedList_eq_map]
      exact Canonical.intersectionOf (List.forall_mem_map.2 ih)
  | union operands ih =>
      rw [normalized, normalizedList_eq_map]
      exact Canonical.unionOf (List.forall_mem_map.2 ih)
  | complement _ ih => exact ih
  | objectSome _ _ ih => exact ih
  | objectAll _ _ ih => exact ih
  | objectCardinality _ _ _ _ ih => exact ih
  | _ => trivial

end ClassExpression

end Ontograph
