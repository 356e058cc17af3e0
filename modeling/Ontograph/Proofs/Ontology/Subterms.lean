import Ontograph.Ontology.ClassExpression.Canonical

/-!
# Subterms

The subterms of an expression are the expression itself and the subterms of its operands or of its
filler.  What an expression "contains" is said of them, one node at a time.

Main statements: `Plain.normalized` (in a normal form no class has the identifier of the top or the
bottom class) and `ownNames_normalized` (a property of all names in an expression is one of all names
in its normal form).
-/

namespace Ontograph

namespace ClassExpression

mutual

/-- The expression and all expressions in it. -/
def subterms : ClassExpression → List ClassExpression
  | intersection operands => intersection operands :: subtermsList operands
  | union operands => union operands :: subtermsList operands
  | complement operand => complement operand :: operand.subterms
  | objectSome property filler => objectSome property filler :: filler.subterms
  | objectAll property filler => objectAll property filler :: filler.subterms
  | objectCardinality restriction count property filler =>
      objectCardinality restriction count property filler :: filler.subterms
  | e => [e]

/-- All expressions in some operand. -/
def subtermsList : List ClassExpression → List ClassExpression
  | [] => []
  | operand :: rest => operand.subterms ++ subtermsList rest

end

theorem mem_subtermsList {s : ClassExpression} {l : List ClassExpression} :
    s ∈ subtermsList l ↔ ∃ e ∈ l, s ∈ e.subterms := by
  induction l with
  | nil => simp [subtermsList]
  | cons a rest ih => simp [subtermsList, ih]

theorem self_mem_subterms (e : ClassExpression) : e ∈ e.subterms := by
  cases e <;> simp [subterms]

variable {P : ClassExpression → Prop}

theorem forall_subtermsList {l : List ClassExpression} :
    (∀ s ∈ subtermsList l, P s) ↔ ∀ e ∈ l, ∀ s ∈ e.subterms, P s := by
  constructor
  · intro all e he s hs
    exact all s (mem_subtermsList.2 ⟨e, he, hs⟩)
  · intro all s hs
    obtain ⟨e, he, hs⟩ := mem_subtermsList.1 hs
    exact all e he s hs

/-! ## Constructors and the normal form -/

/-- A property of all subterms of all operands passes to the conjunction, if the top class and
intersections have it. -/
theorem forall_subterms_intersectionOf {l : List ClassExpression} (top : P thing)
    (inner : ∀ operands, P (intersection operands)) (operands : ∀ e ∈ l, ∀ s ∈ e.subterms, P s) :
    ∀ s ∈ (intersectionOf l).subterms, P s := by
  have members : ∀ e ∈ Ascending.ofList l, ∀ s ∈ e.subterms, P s :=
    fun e he => operands e (Ascending.mem_ofList.1 he)
  unfold intersectionOf
  split
  · simpa [subterms] using top
  · next single => exact members _ (by simp [single])
  · exact List.forall_mem_cons.2 ⟨inner _, forall_subtermsList.2 members⟩

/-- A property of all subterms of all operands passes to the disjunction, if the bottom class and
unions have it. -/
theorem forall_subterms_unionOf {l : List ClassExpression} (bottom : P nothing)
    (inner : ∀ operands, P (union operands)) (operands : ∀ e ∈ l, ∀ s ∈ e.subterms, P s) :
    ∀ s ∈ (unionOf l).subterms, P s := by
  have members : ∀ e ∈ Ascending.ofList l, ∀ s ∈ e.subterms, P s :=
    fun e he => operands e (Ascending.mem_ofList.1 he)
  unfold unionOf
  split
  · simpa [subterms] using bottom
  · next single => exact members _ (by simp [single])
  · exact List.forall_mem_cons.2 ⟨inner _, forall_subtermsList.2 members⟩

/-- No class in the expression has the identifier of the top or the bottom class. -/
def Plain (e : ClassExpression) : Prop :=
  ∀ s ∈ e.subterms, ∀ uri, s = named uri →
    uri ≠ Vocabulary.owlThing ∧ uri ≠ Vocabulary.owlNothing

/-- The normal form writes the top and the bottom class without their identifiers. -/
theorem Plain.normalized (e : ClassExpression) : e.normalized.Plain := by
  unfold Plain
  induction e using induction with
  | named uri =>
      rw [ClassExpression.normalized]
      unfold ofUri
      split
      · simp [subterms]
      · split
        · simp [subterms]
        · simp_all [subterms]
  | intersection operands ih =>
      rw [ClassExpression.normalized, normalizedList_eq_map]
      exact forall_subterms_intersectionOf (by simp) (by simp) (List.forall_mem_map.2 ih)
  | union operands ih =>
      rw [ClassExpression.normalized, normalizedList_eq_map]
      exact forall_subterms_unionOf (by simp) (by simp) (List.forall_mem_map.2 ih)
  | complement _ ih | objectSome _ _ ih | objectAll _ _ ih | objectCardinality _ _ _ _ ih =>
      exact List.forall_mem_cons.2 ⟨by simp, ih⟩
  | _ => simp [ClassExpression.normalized, subterms]

/-! ## Names -/

/-- The class or the property that an expression names itself, its operands and its filler aside. -/
def ownNames : ClassExpression → List Uri
  | named uri => [uri]
  | objectSome property _ => [property]
  | objectAll property _ => [property]
  | objectHas property _ => [property]
  | objectCardinality _ _ property _ => [property]
  | dataSome property => [property]
  | dataHas property _ => [property]
  | dataAll property _ => [property]
  | _ => []

/-- What holds of the names in an expression holds of those in its normal form. -/
theorem ownNames_normalized {Q : Uri → Prop} {e : ClassExpression}
    (h : ∀ s ∈ e.subterms, ∀ uri ∈ s.ownNames, Q uri) :
    ∀ s ∈ e.normalized.subterms, ∀ uri ∈ s.ownNames, Q uri := by
  induction e using induction with
  | named uri =>
      rw [normalized]
      unfold ofUri
      split
      · simp [subterms, ownNames]
      · split
        · simp [subterms, ownNames]
        · exact h
  | intersection operands ih =>
      have parts := forall_subtermsList.1 (List.forall_mem_cons.1 h).2
      rw [normalized, normalizedList_eq_map]
      exact forall_subterms_intersectionOf (by simp [ownNames]) (by simp [ownNames])
        (List.forall_mem_map.2 fun e he => ih e he (parts e he))
  | union operands ih =>
      have parts := forall_subtermsList.1 (List.forall_mem_cons.1 h).2
      rw [normalized, normalizedList_eq_map]
      exact forall_subterms_unionOf (by simp [ownNames]) (by simp [ownNames])
        (List.forall_mem_map.2 fun e he => ih e he (parts e he))
  | complement _ ih | objectSome _ _ ih | objectAll _ _ ih | objectCardinality _ _ _ _ ih =>
      obtain ⟨own, inner⟩ := List.forall_mem_cons.1 h
      exact List.forall_mem_cons.2 ⟨own, ih inner⟩
  | _ => exact h

end ClassExpression

end Ontograph
