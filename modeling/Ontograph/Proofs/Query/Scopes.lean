import Ontograph.Proofs.Query.Clause
import Ontograph.Proofs.Query.Simulation
import Ontograph.Query.Compiler

/-!
# Scopes and their classes

The scopes of an expression are the expression itself and the fillers of the existential restrictions in it,
as deep as they stand (`ClassExpression.scopes`).  A pattern names the classes of one scope in one place: in
direct mode as the labels of a node, in inference mode as the classes of a binding, for each of which there
is one call.  The places come in the order of the scopes, and a scope without classes has none
(`Draft.Names`).

What is named is the list of all classes that are conjoined at a scope, through any nesting of
intersections.  The operands of one intersection are a set, but this list is not: a class that stands both
in an intersection and in an intersection among its operands is named twice
(`Compiler.nested_class_named_twice`).

Main statement: `Compiler.classes_named_by_scope`.
-/

namespace Ontograph

/-! ## Lists that are not empty -/

section Filled

variable {α : Type}

/-- The lists that are not empty. -/
def filled (lists : List (List α)) : List (List α) :=
  lists.filter fun l => !l.isEmpty

@[simp] theorem filled_nil : filled ([] : List (List α)) = [] := rfl

@[simp] theorem filled_cons_nil (lists : List (List α)) : filled ([] :: lists) = filled lists := rfl

@[simp] theorem filled_append (lists more : List (List α)) :
    filled (lists ++ more) = filled lists ++ filled more :=
  List.filter_append ..

theorem filled_singleton {l : List α} (some : l ≠ []) : filled [l] = [l] := by
  simp [filled, some]

/-- What empty lists have is had by all lists if all that are not empty have it. -/
theorem forall_mem_filled {P : List α → Prop} (none : P []) {lists : List (List α)} :
    (∀ l ∈ filled lists, P l) ↔ ∀ l ∈ lists, P l := by
  constructor
  · intro all l hl
    by_cases empty : l = []
    · rwa [empty]
    · exact all l (List.mem_filter.2 ⟨hl, by simpa using empty⟩)
  · intro all l hl
    exact all l (List.mem_filter.1 hl).1

end Filled

/-! ## Scopes -/

namespace ClassExpression

mutual

/-- The scopes that the restrictions of an expression open, in the order of opening. -/
def innerScopes : ClassExpression → List ClassExpression
  | objectSome _ filler => filler :: filler.innerScopes
  | intersection operands => innerScopesList operands
  | _ => []

/-- The scopes that the restrictions of operands open. -/
def innerScopesList : List ClassExpression → List ClassExpression
  | [] => []
  | operand :: rest => operand.innerScopes ++ innerScopesList rest

end

/-- The scopes of an expression, in the order of opening. -/
def scopes (e : ClassExpression) : List ClassExpression :=
  e :: e.innerScopes

/-- The classes conjoined at each scope that has any. -/
def classLists (e : ClassExpression) : List (List Uri) :=
  filled (e.scopes.map conjoinedClasses)

/-- No scope conjoins a class twice. -/
def ConjoinsOnce (e : ClassExpression) : Prop :=
  ∀ s ∈ e.scopes, s.conjoinedClasses.Nodup

/-- No operand of an intersection is an intersection. -/
def Flat (e : ClassExpression) : Prop :=
  ∀ operands, intersection operands ∈ e.subterms →
    ∀ operand ∈ operands, ∀ inner, operand ≠ intersection inner

/-- Scopes are opened by restrictions. -/
theorem innerScopes_eq_flatMap (e : ClassExpression) :
    e.innerScopes = e.restrictions.flatMap innerScopes := by
  induction e using induction with
  | intersection operands ih =>
      rw [innerScopes, restrictions]
      induction operands with
      | nil => rfl
      | cons a rest step =>
          obtain ⟨first, others⟩ := List.forall_mem_cons.1 ih
          rw [innerScopesList, restrictionsList, List.flatMap_append, ← first, step others]
  | objectSome => simp [restrictions]
  | _ => rfl

theorem mem_innerScopesList {s : ClassExpression} {l : List ClassExpression} :
    s ∈ innerScopesList l ↔ ∃ e ∈ l, s ∈ e.innerScopes := by
  induction l with
  | nil => simp [innerScopesList]
  | cons a rest ih => simp [innerScopesList, ih]

theorem mem_subterms_of_mem_innerScopes {s e : ClassExpression} (h : s ∈ e.innerScopes) :
    s ∈ e.subterms := by
  induction e using induction with
  | intersection operands ih =>
      obtain ⟨e, he, hs⟩ := mem_innerScopesList.1 h
      exact List.mem_cons_of_mem _ (mem_subtermsList.2 ⟨e, he, ih e he hs⟩)
  | objectSome property filler ih =>
      rcases List.mem_cons.1 h with rfl | inner
      · exact List.mem_cons_of_mem _ (self_mem_subterms _)
      · exact List.mem_cons_of_mem _ (ih inner)
  | _ => cases h

theorem mem_subterms_of_mem_scopes {s e : ClassExpression} (h : s ∈ e.scopes) : s ∈ e.subterms := by
  rcases List.mem_cons.1 h with rfl | inner
  · exact self_mem_subterms _
  · exact mem_subterms_of_mem_innerScopes inner

/-! ### Flat expressions -/

theorem Canonical.of_mem_subterms {s e : ClassExpression} (h : e.Canonical) (hs : s ∈ e.subterms) :
    s.Canonical := by
  induction e using induction with
  | intersection operands ih | union operands ih =>
      rcases List.mem_cons.1 hs with rfl | inner
      · exact h
      · obtain ⟨e, he, hs⟩ := mem_subtermsList.1 inner
        exact ih e he (canonicalList_iff.1 h.2 e he) hs
  | complement _ ih | objectSome _ _ ih | objectAll _ _ ih | objectCardinality _ _ _ _ ih =>
      rcases List.mem_cons.1 hs with rfl | inner
      · exact h
      · exact ih h inner
  | _ =>
      obtain rfl := List.mem_singleton.1 hs
      exact h

/-- Without intersections among them, different operands conjoin different classes. -/
theorem nodup_conjoinedClassesList {operands : List ClassExpression} (distinct : operands.Nodup)
    (flat : ∀ operand ∈ operands, ∀ inner, operand ≠ intersection inner) :
    (conjoinedClassesList operands).Nodup := by
  induction operands with
  | nil => exact List.nodup_nil
  | cons a rest ih =>
      obtain ⟨new, others⟩ := List.nodup_cons.1 distinct
      obtain ⟨flatHead, flatRest⟩ := List.forall_mem_cons.1 flat
      have tail := ih others flatRest
      rw [conjoinedClassesList]
      cases a with
      | named uri =>
          refine List.nodup_cons.2 ⟨fun again => new ?_, tail⟩
          obtain ⟨e, he, hu⟩ := mem_conjoinedClassesList.1 again
          cases e with
          | named =>
              obtain rfl := List.mem_singleton.1 hu
              exact he
          | intersection inner => exact absurd rfl (flatRest _ he inner)
          | _ => cases hu
      | intersection inner => exact absurd rfl (flatHead inner)
      | _ => exact tail

/-- In a flat normal form no scope conjoins a class twice. -/
theorem conjoinsOnce_of_flat {e : ClassExpression} (canonical : e.Canonical) (flat : e.Flat) :
    e.ConjoinsOnce := by
  intro s hs
  have inside := mem_subterms_of_mem_scopes hs
  cases s with
  | intersection operands =>
      have strict : Ascending.Strict operands := (canonical.of_mem_subterms inside).1
      exact nodup_conjoinedClassesList strict.nodup (flat operands inside)
  | named uri => exact List.nodup_singleton uri
  | _ => exact List.nodup_nil

end ClassExpression

/-! ## Where classes are named -/

/-- The labels of a part. -/
def Part.labels : Part → List Uri
  | node _ labels => labels
  | edge _ _ _ => []
  | valueEdge _ _ _ _ => []

/-- The class whose members a clause calls the procedure for. -/
def Clause.calledClass? : Clause → Option Uri
  | call cls _ => some cls
  | collect cls _ => some cls
  | _ => none

namespace Binding

/-- The classes of a binding. -/
def classes : Binding → List Uri
  | members cls _ => [cls]
  | common sets _ => sets.map MemberSet.cls

/-- The classes for which a binding calls the procedure, one for each call. -/
def calls (binding : Binding) : List Uri :=
  binding.clauses.filterMap Clause.calledClass?

/-- The binding is by the members of one class, without a set. -/
def IsPlain (binding : Binding) : Prop :=
  ∃ cls var, binding = members cls var

/-- There is one call for each class. -/
theorem calls_eq_classes (binding : Binding) : binding.calls = binding.classes := by
  cases binding with
  | members cls var => rfl
  | common sets var =>
      have collects : (sets.map fun set => Clause.collect set.cls set.var).filterMap
          Clause.calledClass? = sets.map MemberSet.cls := by
        rw [List.filterMap_map, ← List.filterMap_eq_map]
        rfl
      rw [calls, clauses, List.filterMap_append, collects]
      simp [Clause.calledClass?, classes]

/-- The binding of a node by classes. -/
def ofClasses (target node : String) : List Uri → Binding
  | [cls] => members cls node
  | classes => common (classes.mapIdx fun i cls => ⟨cls, Draft.setName target node i⟩) node

theorem classes_ofClasses (target node : String) (list : List Uri) :
    (ofClasses target node list).classes = list := by
  have named : (list.mapIdx fun i cls => (⟨cls, Draft.setName target node i⟩ : MemberSet)).map
      MemberSet.cls = list := by
    apply List.ext_getElem <;> simp
  match list, named with
  | [], _ => rfl
  | [_], _ => rfl
  | _ :: _ :: _, named => exact named

/-- A binding is plain exactly if it has one class. -/
theorem isPlain_ofClasses (target node : String) (list : List Uri) :
    (ofClasses target node list).IsPlain ↔ list.length = 1 := by
  match list with
  | [] => simp [ofClasses, IsPlain]
  | [cls] => simp [ofClasses, IsPlain]
  | _ :: _ :: _ => simp [ofClasses, IsPlain]

end Binding

namespace Mode

/-- What a mode writes as labels, of what it has to name. -/
def asLabels {α : Type} : Mode → List α → List α
  | direct, lists => lists
  | inference, _ => []

/-- What a mode writes as bindings, of what it has to name. -/
def asBindings {α : Type} : Mode → List α → List α
  | direct, _ => []
  | inference, lists => lists

end Mode

namespace Draft

variable {mode : Mode} {node : String} {depth : Nat} {d d' : Draft} {lists : List (List Uri)}

/-- What is added for the classes of a node, if there are any. -/
theorem addClasses_eq {classes : List Uri} (some : classes ≠ [])
    (added : d.addClasses mode node classes = .ok d') :
    d' = match mode with
      | .direct => d.addPart (.node node classes)
      | .inference => d.addBinding (.ofClasses d.target node classes) := by
  obtain ⟨_, _, added⟩ := bind_eq_ok.1 added
  match mode, classes, some with
  | .direct, _ :: _, _ =>
      cases added
      rfl
  | .inference, [_], _ =>
      cases added
      rfl
  | .inference, _ :: _ :: _, _ =>
      cases added
      rfl

/-- The draft names some lists of classes, in order. -/
structure Names (mode : Mode) (d : Draft) (lists : List (List Uri)) : Prop where
  labels : filled (d.parts.map Part.labels) = mode.asLabels lists
  classes : d.bindings.map Binding.classes = mode.asBindings lists
  plain : ∀ b ∈ d.bindings, b.IsPlain ↔ b.classes.length = 1

namespace Names

theorem congr (h : d.Names mode lists) (parts : d'.parts = d.parts)
    (bindings : d'.bindings = d.bindings) : d'.Names mode lists where
  labels := by rw [parts, h.labels]
  classes := by rw [bindings, h.classes]
  plain := by rw [bindings]; exact h.plain

/-- A part without labels names nothing. -/
theorem addPart (h : d.Names mode lists) {part : Part} (none : part.labels = []) :
    (d.addPart part).Names mode lists where
  labels := by simpa [Draft.addPart, none] using h.labels
  classes := h.classes
  plain := h.plain

theorem addNothing (h : d.Names mode lists) (e : ClassExpression) :
    (d.addNothing e).Names mode lists := by
  rcases addNothing_cases e d with same | same
  · rwa [same]
  · rw [same]
    exact h.congr rfl rfl

/-- The classes of a node are one more list, unless there are none. -/
theorem addClassesOf (h : d.Names mode lists) {e : ClassExpression}
    (added : d.addClassesOf mode node e = .ok d') :
    d'.Names mode (lists ++ filled [e.conjoinedClasses]) := by
  have before := h.addNothing e
  by_cases none : e.conjoinedClasses = []
  · rw [Draft.addClassesOf, none, addClasses_nil] at added
    cases added
    simpa [none] using before
  · rw [filled_singleton none, addClasses_eq none added]
    cases mode with
    | direct =>
        refine ⟨?_, before.classes, before.plain⟩
        have labels : filled ((d.addNothing e).parts.map Part.labels) = lists := before.labels
        simp [Draft.addPart, Part.labels, filled_singleton none, labels, Mode.asLabels]
    | inference =>
        refine ⟨before.labels, ?_, ?_⟩
        · have classes : (d.addNothing e).bindings.map Binding.classes = lists := before.classes
          rw [Draft.addBinding, List.map_append, classes, List.map_singleton,
            Binding.classes_ofClasses]
          rfl
        · intro b hb
          rcases List.mem_append.1 hb with old | new
          · exact before.plain b old
          · obtain rfl := List.mem_singleton.1 new
            rw [Binding.isPlain_ofClasses, Binding.classes_ofClasses]

/-- A walk names the classes of the scopes that it opens. -/
theorem walk {rs : List ClassExpression} (w : ClassExpression.Walk mode node depth rs d d')
    (h : d.Names mode lists) :
    d'.Names mode (lists ++ filled ((rs.flatMap (·.innerScopes)).map (·.conjoinedClasses))) := by
  induction w generalizing lists with
  | done => simpa using h
  | @objectSome node depth property filler rest d d₁ d₂ d' name quoted classes walk _ inner others =>
      have fresh : d.fresh.2.Names mode lists := h.congr rfl rfl
      have entered : (d.enterEdge node property depth).Names mode lists :=
        (fresh.addPart rfl).congr rfl rfl
      have left : d₂.leave.Names mode _ := (inner (entered.addClassesOf classes)).congr rfl rfl
      have all := others left
      have opened : filled (((.objectSome property filler :: rest).flatMap (·.innerScopes)).map
          (·.conjoinedClasses)) = filled [filler.conjoinedClasses] ++
            (filled (filler.innerScopes.map (·.conjoinedClasses)) ++
              filled ((rest.flatMap (·.innerScopes)).map (·.conjoinedClasses))) := by
        rw [← filled_append, ← filled_append, ← List.map_append]
        rfl
      rw [← ClassExpression.innerScopes_eq_flatMap] at all
      rwa [opened, ← List.append_assoc, ← List.append_assoc]
  | @objectHas node depth property individual rest d d' name quoted _ others =>
      have fresh : d.fresh.2.Names mode lists := h.congr rfl rfl
      exact others (fresh.addPart rfl)
  | dataSome quoted _ others => exact others (h.congr rfl rfl)
  | dataHas quoted written _ others => exact others (h.congr rfl rfl)

end Names

end Draft

/-! ## Patterns -/

namespace Pattern

/-- A pattern names the classes of each scope, in order. -/
theorem names_of_toPattern {mode : Mode} {target : Option String} {e : ClassExpression} {q : Pattern}
    (h : e.toPattern mode target = .ok q) :
    filled (q.parts.map Part.labels) = mode.asLabels e.normalized.classLists ∧
      q.bindings.map Binding.classes = mode.asBindings e.normalized.classLists ∧
      ∀ b ∈ q.bindings, b.IsPlain ↔ b.classes.length = 1 := by
  obtain ⟨d₁, d₂, classes, w, rfl⟩ := ClassExpression.walk_of_toPattern h
  have start : ((Draft.start (target.getD "n0")).enter 1).Names mode [] := by
    cases mode <;> exact ⟨rfl, rfl, nofun⟩
  have walked := (start.addClassesOf classes).walk w
  rw [← ClassExpression.innerScopes_eq_flatMap, List.nil_append, ← filled_append] at walked
  refine ⟨?_, walked.classes, walked.plain⟩
  refine Eq.trans ?_ walked.labels
  cases none : d₂.parts <;> simp [Draft.finish, Draft.leave, none, Part.labels]

/-- No part and no binding of the pattern names a class twice. -/
def NamesOnce (q : Pattern) : Prop :=
  (∀ part ∈ q.parts, part.labels.Nodup) ∧ ∀ b ∈ q.bindings, b.classes.Nodup

end Pattern

/-- A class and an intersection with the same class. -/
def ClassExpression.repeatedClass : ClassExpression :=
  intersection [named "A", intersection [named "A", dataSome "p"]]

/-- Two classes on one node, and one of them on the next. -/
def ClassExpression.pairThenOne : ClassExpression :=
  intersection [named "A", named "B", objectSome "p" (named "A")]

namespace Compiler

/-- A pattern names, scope by scope, the classes that are conjoined at the scope: direct mode by the labels
of a node, inference mode by the classes of a binding, with one call for each and no set if there is just
one.  So no class is named twice in one place exactly if no scope conjoins a class twice; and then a scope
has as many calls as different classes, and a plain binding if there is just one.  This is so for all
expressions in whose normal form no intersection is an operand of another. -/
theorem classes_named_by_scope (compiler : Compiler) {e : ClassExpression} {target : Option String}
    {q : Pattern} (h : compiler.pattern e target = .ok q) :
    filled (q.parts.map Part.labels) = compiler.mode.asLabels e.normalized.classLists ∧
    q.bindings.map Binding.classes = compiler.mode.asBindings e.normalized.classLists ∧
    (∀ b ∈ q.bindings, b.calls = b.classes ∧ (b.IsPlain ↔ b.calls.length = 1)) ∧
    (q.NamesOnce ↔ e.normalized.ConjoinsOnce) ∧
    (e.normalized.ConjoinsOnce → ∀ b ∈ q.bindings,
      b.calls.length = b.classes.dedup.length ∧ (b.IsPlain ↔ b.classes.dedup.length = 1)) ∧
    (e.normalized.Flat → e.normalized.ConjoinsOnce) := by
  obtain ⟨labels, classes, plain⟩ := Pattern.names_of_toPattern h
  have once : q.NamesOnce ↔ e.normalized.ConjoinsOnce := by
    have ofLists : e.normalized.ConjoinsOnce ↔ ∀ l ∈ e.normalized.classLists, l.Nodup := by
      unfold ClassExpression.ConjoinsOnce ClassExpression.classLists
      rw [forall_mem_filled List.nodup_nil, List.forall_mem_map]
    have ofParts : (∀ part ∈ q.parts, part.labels.Nodup) ↔
        ∀ l ∈ compiler.mode.asLabels e.normalized.classLists, l.Nodup := by
      rw [← labels, forall_mem_filled List.nodup_nil, List.forall_mem_map]
    have ofBindings : (∀ b ∈ q.bindings, b.classes.Nodup) ↔
        ∀ l ∈ compiler.mode.asBindings e.normalized.classLists, l.Nodup := by
      rw [← classes, List.forall_mem_map]
    rw [Pattern.NamesOnce, ofParts, ofBindings, ofLists]
    cases compiler.mode <;> simp [Mode.asLabels, Mode.asBindings]
  refine ⟨labels, classes, ?_, once, ?_, ?_⟩
  · intro b hb
    exact ⟨b.calls_eq_classes, by rw [b.calls_eq_classes, plain b hb]⟩
  · intro distinct b hb
    have nodup := (once.2 distinct).2 b hb
    rw [nodup.dedup, b.calls_eq_classes]
    exact ⟨rfl, plain b hb⟩
  · exact ClassExpression.conjoinsOnce_of_flat (ClassExpression.canonical_normalized e)

theorem classes_named_by_scope_pairThenOne :
    ∃ q, (⟨{}, .inference, "closure"⟩ : Compiler).pattern .pairThenOne none = .ok q ∧
      q.bindings = [.common [⟨"A", "n0_set0"⟩, ⟨"B", "n0_set1"⟩] "n0", .members "A" "n1"] ∧
      q.bindings.map Binding.classes = ClassExpression.pairThenOne.classLists ∧ q.NamesOnce ∧
      ∀ b ∈ q.bindings, b.calls.length = b.classes.dedup.length := by
  obtain ⟨q, lowered, bindings⟩ : ∃ q,
      (⟨{}, .inference, "closure"⟩ : Compiler).pattern .pairThenOne none = .ok q ∧
        q.bindings = [.common [⟨"A", "n0_set0"⟩, ⟨"B", "n0_set1"⟩] "n0", .members "A" "n1"] :=
    ⟨_, rfl, rfl⟩
  have normal : ClassExpression.pairThenOne.normalized = .pairThenOne := rfl
  have distinct : ClassExpression.pairThenOne.ConjoinsOnce := by
    unfold ClassExpression.ConjoinsOnce
    decide
  obtain ⟨_, classes, _, once, counted, _⟩ := classes_named_by_scope _ lowered
  rw [normal] at classes once counted
  exact ⟨q, lowered, bindings, classes, once.2 distinct, fun b hb => (counted distinct b hb).1⟩

/-- A class that is conjoined twice through nesting is named twice, and called for twice although it is the
only one. -/
theorem nested_class_named_twice :
    (∃ q, (⟨{}, .direct, "closure"⟩ : Compiler).pattern .repeatedClass none = .ok q ∧
      q.parts = [.node "n0" ["A", "A"]]) ∧
    ∃ q, (⟨{}, .inference, "closure"⟩ : Compiler).pattern .repeatedClass none = .ok q ∧
      q.bindings = [.common [⟨"A", "n0_set0"⟩, ⟨"A", "n0_set1"⟩] "n0"] ∧
      q.bindings.map Binding.calls = [["A", "A"]] :=
  ⟨⟨_, rfl, rfl⟩, _, rfl, rfl, rfl⟩

end Compiler

end Ontograph
