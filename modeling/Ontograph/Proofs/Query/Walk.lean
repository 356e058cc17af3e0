import Ontograph.Proofs.Ontology.Conjuncts
import Ontograph.Proofs.Query.Draft

/-!
# Walks

Adding an expression to a draft visits it scope by scope.  In each scope the classes come first and the
restrictions follow in order; a restriction `∃p.C` opens a scope for `C`.  `Walk` says what the visits of a
list of restrictions do to a draft when none of them fails.  It has one constructor per kind of restriction,
and what every visit keeps is shown by induction on it.

Main statements: `addTo_eq` (an expression is added as its classes and then its restrictions) and
`walk_of_addAll` (restrictions that are added without a failure are walked).
-/

namespace Ontograph

namespace ClassExpression

variable {mode : Mode} {node : String} {depth : Nat}

/-! ## Classes first, restrictions after -/

/-- Adds restrictions in order. -/
def addAll (mode : Mode) (node : String) (depth : Nat) (rs : List ClassExpression) (d : Draft) :
    Except Failure Draft :=
  rs.foldlM (fun d r => r.addTo mode node depth d) d

@[simp] theorem addAll_nil (d : Draft) : addAll mode node depth [] d = .ok d := rfl

@[simp] theorem addAll_singleton (r : ClassExpression) (d : Draft) :
    addAll mode node depth [r] d = r.addTo mode node depth d := by
  simp [addAll]

theorem addAll_append (rs ts : List ClassExpression) (d : Draft) :
    addAll mode node depth (rs ++ ts) d =
      addAll mode node depth rs d >>= addAll mode node depth ts :=
  List.foldlM_append

theorem addOperandsTo_cons (e : ClassExpression) (rest : List ClassExpression) (d : Draft) :
    addOperandsTo mode node depth (e :: rest) d =
      addOperandsTo mode node depth [e] d >>= addOperandsTo mode node depth rest := by
  cases e <;> simp [addOperandsTo]

/-- Operands are added as the restrictions among their conjuncts. -/
theorem addOperandsTo_eq_addAll (l : List ClassExpression) :
    addOperandsTo mode node depth l = addAll mode node depth (restrictionsList l) := by
  refine operands_eq_restrictions (fun first second d => first d >>= second) ?_
    (fun e rest => funext (addOperandsTo_cons e rest)) (fun rs ts => funext (addAll_append rs ts))
    (fun operands => funext fun d => ?_) (fun e other => funext fun d => ?_) l
  · rfl
  · simp [addOperandsTo]
  · cases e with
    | intersection operands => exact absurd rfl (other operands)
    | _ => simp [addOperandsTo, restrictions]

/-- An expression is added as its classes and then its restrictions. -/
theorem addTo_eq (e : ClassExpression) (d : Draft) :
    e.addTo mode node depth d =
      d.addClassesOf mode node e >>= addAll mode node depth e.restrictions := by
  cases e with
  | intersection operands =>
      rw [addTo]
      exact bind_congr fun d => congrFun (addOperandsTo_eq_addAll operands) d
  | named uri =>
      rw [addTo, restrictions]
      exact (bind_ok _).symm
  | _ => simp [addTo, Draft.addClassesOf, Draft.addNothing, conjoinedClasses, conjoinsNothing,
      restrictions]

theorem addTo_objectSome (property : Uri) (filler : ClassExpression) (d : Draft) :
    (objectSome property filler).addTo mode node depth d =
      Query.uriName property >>= fun _ =>
        filler.addTo mode d.fresh.1 (depth + 1) (d.enterEdge node property depth) >>= fun d =>
          .ok d.leave := by
  rw [addTo]
  rfl

/-! ## Walks -/

/-- Visiting restrictions of a node in turn leads from one draft to another. -/
inductive Walk (mode : Mode) : String → Nat → List ClassExpression → Draft → Draft → Prop where
  | done {node : String} {depth : Nat} {d : Draft} : Walk mode node depth [] d d
  | objectSome {node : String} {depth : Nat} {property : Uri} {filler : ClassExpression}
      {rest : List ClassExpression} {d d₁ d₂ d' : Draft} {name : String}
      (quoted : Query.uriName property = .ok name)
      (classes : (d.enterEdge node property depth).addClassesOf mode d.fresh.1 filler = .ok d₁)
      (inner : Walk mode d.fresh.1 (depth + 1) filler.restrictions d₁ d₂)
      (others : Walk mode node depth rest d₂.leave d') :
      Walk mode node depth (objectSome property filler :: rest) d d'
  | objectHas {node : String} {depth : Nat} {property individual : Uri}
      {rest : List ClassExpression} {d d' : Draft} {name : String}
      (quoted : Query.uriName property = .ok name)
      (others : Walk mode node depth rest (d.addValueEdge node property individual) d') :
      Walk mode node depth (objectHas property individual :: rest) d d'
  | dataSome {node : String} {depth : Nat} {property : Uri} {rest : List ClassExpression}
      {d d' : Draft} {name : String} (quoted : Query.uriName property = .ok name)
      (others : Walk mode node depth rest (d.addCondition (.hasAttribute node property)) d') :
      Walk mode node depth (dataSome property :: rest) d d'
  | dataHas {node : String} {depth : Nat} {property : Uri} {value : Literal}
      {rest : List ClassExpression} {d d' : Draft} {name text : String}
      (quoted : Query.uriName property = .ok name) (written : Query.literal value = .ok text)
      (others : Walk mode node depth rest (d.addCondition (.attributeEquals node property value)) d') :
      Walk mode node depth (dataHas property value :: rest) d d'

/-- Walks one after the other are a walk. -/
theorem Walk.append {rs ts : List ClassExpression} {d d₁ d' : Draft}
    (first : Walk mode node depth rs d d₁) (second : Walk mode node depth ts d₁ d') :
    Walk mode node depth (rs ++ ts) d d' := by
  induction first with
  | done => exact second
  | objectSome quoted classes inner _ _ ih => exact .objectSome quoted classes inner (ih second)
  | objectHas quoted _ ih => exact .objectHas quoted (ih second)
  | dataSome quoted _ ih => exact .dataSome quoted (ih second)
  | dataHas quoted written _ ih => exact .dataHas quoted written (ih second)

/-- Adding the restrictions of an expression without a failure is a walk. -/
theorem walk_of_addAll {e : ClassExpression} {d d' : Draft}
    (h : addAll mode node depth e.restrictions d = .ok d') :
    Walk mode node depth e.restrictions d d' := by
  induction e using induction generalizing node depth d d' with
  | thing | nothing | named =>
      cases h
      exact .done
  | intersection operands ih =>
      rw [restrictions] at h ⊢
      induction operands generalizing d with
      | nil =>
          cases h
          exact .done
      | cons a rest step =>
          obtain ⟨first, others⟩ := List.forall_mem_cons.1 ih
          rw [restrictionsList, addAll_append] at h
          obtain ⟨d₁, h₁, h₂⟩ := bind_eq_ok.1 h
          exact (first h₁).append (step others h₂)
  | objectSome property filler ih =>
      rw [restrictions, addAll_singleton, addTo_objectSome] at h
      obtain ⟨name, quoted, h⟩ := bind_eq_ok.1 h
      obtain ⟨d₂, added, h⟩ := bind_eq_ok.1 h
      cases h
      rw [addTo_eq] at added
      obtain ⟨d₁, classes, h⟩ := bind_eq_ok.1 added
      exact .objectSome quoted classes (ih h) .done
  | objectHas property individual =>
      rw [restrictions, addAll_singleton, addTo] at h
      obtain ⟨name, quoted, h⟩ := bind_eq_ok.1 h
      cases h
      exact .objectHas quoted .done
  | dataSome property =>
      rw [restrictions, addAll_singleton, addTo] at h
      obtain ⟨name, quoted, h⟩ := bind_eq_ok.1 h
      cases h
      exact .dataSome quoted .done
  | dataHas property value =>
      rw [restrictions, addAll_singleton, addTo] at h
      obtain ⟨name, quoted, h⟩ := bind_eq_ok.1 h
      obtain ⟨text, written, h⟩ := bind_eq_ok.1 h
      cases h
      exact .dataHas quoted written .done
  | union | complement | objectAll | objectCardinality | dataAll =>
      rw [restrictions, addAll_singleton, addTo] at h
      cases h

end ClassExpression

end Ontograph
