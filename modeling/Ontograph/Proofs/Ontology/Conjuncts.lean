import Ontograph.Proofs.Ontology.Extension
import Ontograph.Proofs.Ontology.Subterms
import Ontograph.Query.Lowering

/-!
# Conjuncts of class expressions

What an expression says about an element falls into conjuncts: the classes it belongs to
(`conjoinedClasses`), that it does not exist at all (`conjoinsNothing`), and restrictions.  Nested
intersections are taken apart, and an expression that is no intersection is its own only conjunct.

Main statement: `mem_extension_iff` (the extension is the intersection of the extensions of the
conjuncts).
-/

namespace Ontograph

namespace ClassExpression

mutual

/-- The conjuncts of an expression that are neither classes nor the top or the bottom class. -/
def restrictions : ClassExpression → List ClassExpression
  | thing => []
  | nothing => []
  | named _ => []
  | intersection operands => restrictionsList operands
  | union operands => [union operands]
  | complement operand => [complement operand]
  | objectSome property filler => [objectSome property filler]
  | objectAll property filler => [objectAll property filler]
  | objectHas property individual => [objectHas property individual]
  | objectCardinality restriction count property filler =>
      [objectCardinality restriction count property filler]
  | dataSome property => [dataSome property]
  | dataHas property value => [dataHas property value]
  | dataAll property range => [dataAll property range]

/-- The restrictions among the conjuncts of operands, in order. -/
def restrictionsList : List ClassExpression → List ClassExpression
  | [] => []
  | operand :: rest => operand.restrictions ++ restrictionsList rest

end

theorem mem_restrictionsList {r : ClassExpression} {l : List ClassExpression} :
    r ∈ restrictionsList l ↔ ∃ e ∈ l, r ∈ e.restrictions := by
  induction l with
  | nil => simp [restrictionsList]
  | cons a rest ih => simp [restrictionsList, ih]

theorem mem_conjoinedClassesList {uri : Uri} {l : List ClassExpression} :
    uri ∈ conjoinedClassesList l ↔ ∃ e ∈ l, uri ∈ e.conjoinedClasses := by
  induction l with
  | nil => simp [conjoinedClassesList]
  | cons a rest ih => simp [conjoinedClassesList, ih]

theorem conjoinsNothingList_eq_true {l : List ClassExpression} :
    conjoinsNothingList l = true ↔ ∃ e ∈ l, e.conjoinsNothing = true := by
  induction l with
  | nil => simp [conjoinsNothingList]
  | cons a rest ih => simp [conjoinsNothingList, ih]

/-- What is done with operands one after the other, with nested intersections taken apart, is done with
their restrictions one after the other. -/
theorem operands_eq_restrictions {α : Type} (followed : α → α → α)
    {onOperands onRestrictions : List ClassExpression → α} (nil : onOperands [] = onRestrictions [])
    (cons : ∀ e rest, onOperands (e :: rest) = followed (onOperands [e]) (onOperands rest))
    (append : ∀ rs ts, onRestrictions (rs ++ ts) = followed (onRestrictions rs) (onRestrictions ts))
    (nested : ∀ operands, onOperands [intersection operands] = onOperands operands)
    (single : ∀ e, (∀ operands, e ≠ intersection operands) →
      onOperands [e] = onRestrictions e.restrictions) (l : List ClassExpression) :
    onOperands l = onRestrictions (restrictionsList l) := by
  -- A list is gone through operand by operand, so it is enough to know this of single operands.
  have ofSingles : ∀ l, (∀ e ∈ l, onOperands [e] = onRestrictions e.restrictions) →
      onOperands l = onRestrictions (restrictionsList l) := by
    intro l
    induction l with
    | nil => exact fun _ => nil
    | cons a rest ih =>
        intro singles
        obtain ⟨first, others⟩ := List.forall_mem_cons.1 singles
        rw [cons, restrictionsList, append, first, ih others]
  refine ofSingles l fun e member => ?_
  clear member
  induction e using induction with
  | intersection operands ih => rw [nested, restrictions, ofSingles operands ih]
  | _ => exact single _ nofun

/-! ## Conjuncts are subterms -/

theorem mem_subterms_of_mem_restrictions {r e : ClassExpression} (h : r ∈ e.restrictions) :
    r ∈ e.subterms := by
  induction e using induction with
  | intersection operands ih =>
      obtain ⟨e, he, hr⟩ := mem_restrictionsList.1 h
      exact List.mem_cons_of_mem _ (mem_subtermsList.2 ⟨e, he, ih e he hr⟩)
  | thing | nothing | named => cases h
  | _ =>
      obtain rfl := List.mem_singleton.1 h
      exact self_mem_subterms _

theorem named_mem_subterms {uri : Uri} {e : ClassExpression} (h : uri ∈ e.conjoinedClasses) :
    named uri ∈ e.subterms := by
  induction e using induction with
  | intersection operands ih =>
      obtain ⟨e, he, hu⟩ := mem_conjoinedClassesList.1 h
      exact List.mem_cons_of_mem _ (mem_subtermsList.2 ⟨e, he, ih e he hu⟩)
  | named =>
      obtain rfl := List.mem_singleton.1 h
      exact self_mem_subterms _
  | _ => cases h

/-- Subterms of subterms are subterms. -/
theorem subterms_trans {r s e : ClassExpression} (hr : r ∈ s.subterms) (hs : s ∈ e.subterms) :
    r ∈ e.subterms := by
  induction e using induction with
  | intersection operands ih | union operands ih =>
      rcases List.mem_cons.1 hs with rfl | hs
      · exact hr
      · obtain ⟨e, he, hs⟩ := mem_subtermsList.1 hs
        exact List.mem_cons_of_mem _ (mem_subtermsList.2 ⟨e, he, ih e he hs⟩)
  | complement _ ih | objectSome _ _ ih | objectAll _ _ ih | objectCardinality _ _ _ _ ih =>
      rcases List.mem_cons.1 hs with rfl | hs
      · exact hr
      · exact List.mem_cons_of_mem _ (ih hs)
  | _ =>
      obtain rfl := List.mem_singleton.1 hs
      exact hr

/-! ## Extensions -/

variable {Δ : Type} {I : Interpretation Δ} {x : Δ}

/-- An element is in the extension of an expression if it is in that of every conjunct. -/
theorem mem_extension_iff {e : ClassExpression} :
    x ∈ e.extension I ↔
      (∀ uri ∈ e.conjoinedClasses, x ∈ classExtension I uri) ∧ e.conjoinsNothing = false ∧
        ∀ r ∈ e.restrictions, x ∈ r.extension I := by
  induction e using induction with
  | thing => simp [extension, conjoinedClasses, conjoinsNothing, restrictions]
  | nothing => simp [extension, conjoinsNothing]
  | named uri => simp [extension, conjoinedClasses, conjoinsNothing, restrictions]
  | intersection operands ih =>
      have none : conjoinsNothingList operands = false ↔ ∀ e ∈ operands, e.conjoinsNothing = false := by
        rw [← Bool.not_eq_true, conjoinsNothingList_eq_true]
        simp
      rw [mem_extension_intersection, conjoinedClasses, conjoinsNothing, restrictions, none]
      constructor
      · intro all
        refine ⟨fun uri h => ?_, fun e he => ((ih e he).1 (all e he)).2.1, fun r h => ?_⟩
        · obtain ⟨e, he, hu⟩ := mem_conjoinedClassesList.1 h
          exact ((ih e he).1 (all e he)).1 uri hu
        · obtain ⟨e, he, hr⟩ := mem_restrictionsList.1 h
          exact ((ih e he).1 (all e he)).2.2 r hr
      · rintro ⟨classes, none, restrictions⟩ e he
        exact (ih e he).2 ⟨fun uri h => classes uri (mem_conjoinedClassesList.2 ⟨e, he, h⟩), none e he,
          fun r h => restrictions r (mem_restrictionsList.2 ⟨e, he, h⟩)⟩
  | _ => simp [conjoinedClasses, conjoinsNothing, restrictions]

end ClassExpression

end Ontograph
