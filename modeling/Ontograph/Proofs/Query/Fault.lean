import Ontograph.Proofs.Query.Walk

/-!
# Faults

Whether an expression has a pattern, and why not, depends on the expression alone: neither on the mode
nor on what was added to the draft before.  `fault?` is the first fault of an expression in the order
of the visits: the names of the classes of a scope first, then its restrictions in order, and of a
restriction its property before its filler.

Main statement: `addTo_meets` (adding an expression fails with its first fault, and succeeds if it has
none).
-/

namespace Ontograph

/-! ## Attempts and faults -/

/-- An attempt fails with a fault, and succeeds if there is none. -/
def Meets {α : Type} : Option Failure → Except Failure α → Prop
  | none, attempt => ∃ a, attempt = .ok a
  | some failure, attempt => attempt = .error failure

namespace Meets

variable {α β : Type} {fault other : Option Failure}

/-- Of two steps the first fault counts. -/
theorem bind {x : Except Failure α} {f : α → Except Failure β} (first : Meets fault x)
    (second : ∀ a, Meets other (f a)) : Meets (fault <|> other) (x >>= f) := by
  cases fault with
  | none =>
      obtain ⟨a, rfl⟩ := first
      exact second a
  | some failure =>
      obtain rfl := (first : x = .error failure)
      rfl

theorem ok (a : α) : Meets none (.ok a : Except Failure α) :=
  ⟨a, rfl⟩

/-- What is done with a success does not matter. -/
theorem map {x : Except Failure α} {f : α → β} (h : Meets fault x) :
    Meets fault (x >>= fun a => .ok (f a)) := by
  cases fault with
  | none =>
      obtain ⟨a, rfl⟩ := h
      exact ok (f a)
  | some failure =>
      obtain rfl := (h : x = .error failure)
      rfl

/-- Of many attempts the first fault counts. -/
theorem mapM {f : β → Except Failure α} {g : β → Option Failure} (l : List β)
    (each : ∀ b, Meets (g b) (f b)) : Meets (l.findSome? g) (l.mapM f) := by
  induction l with
  | nil => exact ok []
  | cons b rest ih =>
      have first : (b :: rest).findSome? g = (g b <|> rest.findSome? g) := by
        cases h : g b <;> simp [h]
      rw [first, List.mapM_cons]
      exact (each b).bind fun a => ih.map

theorem error_iff {x : Except Failure α} (h : Meets fault x) {failure : Failure} :
    x = .error failure ↔ fault = some failure := by
  cases fault with
  | none =>
      obtain ⟨a, rfl⟩ := h
      simp
  | some failure =>
      obtain rfl := (h : x = .error failure)
      simp

theorem ok_iff {x : Except Failure α} (h : Meets fault x) : (∃ a, x = .ok a) ↔ fault = none := by
  cases fault with
  | none => exact ⟨fun _ => rfl, fun _ => h⟩
  | some failure =>
      obtain rfl := (h : x = .error failure)
      simp

end Meets

/-! ## Names and literals -/

namespace Query

/-- A name that can stand between backticks: not empty and without a backtick. -/
def Quotable (uri : Uri) : Prop :=
  uri ≠ "" ∧ '\x60' ∉ uri.toList

instance (uri : Uri) : Decidable (Quotable uri) :=
  inferInstanceAs (Decidable (_ ∧ _))

/-- The fault of a name. -/
def nameFault? (uri : Uri) : Option Failure :=
  if Quotable uri then none else some (.invalidIdentifier uri)

theorem uriName_meets (uri : Uri) : Meets (nameFault? uri) (uriName uri) := by
  have bad : (uri.toList = [] ∨ '\x60' ∈ uri.toList) ↔ ¬ Quotable uri := by
    rw [String.toList_eq_nil_iff, Quotable, Classical.not_and_iff_not_or_not, not_not, not_not]
  unfold nameFault? uriName
  by_cases h : Quotable uri
  · rw [if_pos h, if_neg fun hb => bad.1 hb h]
    exact Meets.ok _
  · rw [if_neg h, if_pos (bad.2 h)]
    rfl

theorem nameFault?_eq_none {uri : Uri} : nameFault? uri = none ↔ Quotable uri := by
  simp [nameFault?]

theorem exists_uriName_iff {uri : Uri} : (∃ name, uriName uri = .ok name) ↔ Quotable uri := by
  rw [(uriName_meets uri).ok_iff, nameFault?_eq_none]

/-- A literal that has a text: not a double without a value. -/
def Writable : Literal → Prop
  | .float x => x.isFinite = true
  | _ => True

/-- The fault of a literal. -/
def literalFault? : Literal → Option Failure
  | .float x => if x.isFinite then none else some (.unsupported (.nonFinite x))
  | _ => none

theorem literal_meets (value : Literal) : Meets (literalFault? value) (literal value) := by
  cases value with
  | float x => cases h : x.isFinite <;> simp [literalFault?, literal, h, Meets]
  | _ => simp [literalFault?, literal, Meets]

theorem literalFault?_eq_none {value : Literal} : literalFault? value = none ↔ Writable value := by
  cases value <;> simp [literalFault?, Writable]

theorem exists_literal_iff {value : Literal} : (∃ text, literal value = .ok text) ↔ Writable value := by
  rw [(literal_meets value).ok_iff, literalFault?_eq_none]

end Query

/-! ## The first fault of an expression -/

namespace ClassExpression

/-- The fault among the classes that an expression conjoins. -/
def classFault? (e : ClassExpression) : Option Failure :=
  e.conjoinedClasses.findSome? Query.nameFault?

mutual

/-- The first fault among the restrictions of an expression. -/
def restrictionFault? : ClassExpression → Option Failure
  | thing => none
  | nothing => none
  | named _ => none
  | intersection operands => restrictionFaultList? operands
  | objectSome property filler =>
      Query.nameFault? property <|> (filler.classFault? <|> filler.restrictionFault?)
  | objectHas property _ => Query.nameFault? property
  | dataSome property => Query.nameFault? property
  | dataHas property value => Query.nameFault? property <|> Query.literalFault? value
  | union operands => some (.unsupported (.disjunction (union operands)))
  | complement operand => some (.unsupported (.negation (complement operand)))
  | objectAll property filler => some (.unsupported (.universal (objectAll property filler)))
  | dataAll property range => some (.unsupported (.universal (dataAll property range)))
  | objectCardinality restriction count property filler =>
      some (.unsupported (.cardinality (objectCardinality restriction count property filler)))

/-- The first fault among the restrictions of operands. -/
def restrictionFaultList? : List ClassExpression → Option Failure
  | [] => none
  | operand :: rest => operand.restrictionFault? <|> restrictionFaultList? rest

end

/-- The first fault of an expression. -/
def fault? (e : ClassExpression) : Option Failure :=
  e.classFault? <|> e.restrictionFault?

variable {mode : Mode} {node : String} {depth : Nat}

theorem addClassesOf_meets (e : ClassExpression) (d : Draft) :
    Meets e.classFault? (d.addClassesOf mode node e) := by
  have names := Meets.mapM e.conjoinedClasses Query.uriName_meets
  unfold Draft.addClassesOf Draft.addClasses
  split <;> exact names.map

/-- Adding the restrictions of an expression fails with the first fault among them. -/
theorem addAll_meets (e : ClassExpression) (d : Draft) :
    Meets e.restrictionFault? (addAll mode node depth e.restrictions d) := by
  induction e using induction generalizing node depth d with
  | thing | nothing | named => exact Meets.ok d
  | intersection operands ih =>
      rw [restrictionFault?, restrictions]
      induction operands generalizing d with
      | nil => exact Meets.ok d
      | cons a rest step =>
          obtain ⟨first, others⟩ := List.forall_mem_cons.1 ih
          rw [restrictionFaultList?, restrictionsList, addAll_append]
          exact (first d).bind fun d => step others d
  | objectSome property filler ih =>
      rw [restrictions, addAll_singleton, addTo_objectSome, restrictionFault?]
      refine (Query.uriName_meets property).bind fun _ => ?_
      rw [addTo_eq]
      exact ((addClassesOf_meets filler _).bind fun d => ih d).map
  | objectHas property individual =>
      rw [restrictions, addAll_singleton, addTo]
      exact (Query.uriName_meets property).map
  | dataSome property =>
      rw [restrictions, addAll_singleton, addTo]
      exact (Query.uriName_meets property).map
  | dataHas property value =>
      rw [restrictions, addAll_singleton, addTo]
      exact (Query.uriName_meets property).bind fun _ => (Query.literal_meets value).map
  | union | complement | objectAll | objectCardinality | dataAll =>
      rw [restrictions, addAll_singleton, addTo]
      rfl

/-- Adding an expression fails with its first fault. -/
theorem addTo_meets (e : ClassExpression) (d : Draft) :
    Meets e.fault? (e.addTo mode node depth d) := by
  rw [addTo_eq]
  exact (addClassesOf_meets e d).bind fun d => addAll_meets e d

end ClassExpression

end Ontograph
