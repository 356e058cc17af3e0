import Mathlib.Order.Monotone.Basic
import Ontograph.Proofs.Query.Fragment
import Ontograph.Proofs.Query.Scopes
import Ontograph.Proofs.Query.Tree

/-!
# Other targets

The caller chooses the name of the node to return, and new nodes and sets keep clear of it.  A target that
looks like a name that is given out makes the numbers skip one place, or adds an underscore to the name of
a set; it changes nothing else.

Every name has a place: nodes are counted from the target on, and sets by their node and an index.  Under
one target different places have different names (`Draft.nameAt_injective`), so the names under one target
are turned into those under another by their places (`Draft.retarget`).  Two walks over the same
restrictions, each with its own target, stay in step: what one of them adds is what the other one adds,
renamed (`Draft.Retargeted`).

Main statements: `Draft.Retargeted.walk` and, for compilers, `Compiler.target_only_renames`.
-/

namespace Ontograph

/-! ## Renaming -/

/-- The part with other names of nodes. -/
def Part.rename (f : String → String) : Part → Part
  | node var labels => node (f var) labels
  | edge source relation target => edge (f source) relation (f target)
  | valueEdge source relation target individual =>
      valueEdge (f source) relation (f target) individual

/-- The condition with other names of nodes. -/
def Condition.rename (f : String → String) : Condition → Condition
  | hasAttribute var key => hasAttribute (f var) key
  | attributeEquals var key value => attributeEquals (f var) key value
  | unsatisfiable => unsatisfiable

/-- The set with another name. -/
def MemberSet.rename (f : String → String) (set : MemberSet) : MemberSet :=
  ⟨set.cls, f set.var⟩

/-- The binding with other names of nodes and sets. -/
def Binding.rename (f : String → String) : Binding → Binding
  | members cls var => members cls (f var)
  | common sets var => common (sets.map (MemberSet.rename f)) (f var)

/-- Renames by position: a name in one list becomes the name at the same position of another. -/
def exchange (old new : List String) (name : String) : String :=
  (new[old.idxOf name]?).getD name

theorem exchange_map {f : String → String} {old : List String} {name : String} (h : name ∈ old) :
    exchange old (old.map f) name = f name := by
  have bound := List.idxOf_lt_length_of_mem h
  simp [exchange, bound]

theorem Part.rename_congr {f g : String → String} {part : Part}
    (agree : ∀ v ∈ part.vars, f v = g v) : part.rename f = part.rename g := by
  cases part with
  | node var labels => simp only [rename, agree var (by simp [vars])]
  | edge source relation target =>
      simp only [rename, agree source (by simp [vars]), agree target (by simp [vars])]
  | valueEdge source relation target individual =>
      simp only [rename, agree source (by simp [vars]), agree target (by simp [vars])]

theorem Condition.rename_congr {f g : String → String} {condition : Condition}
    (agree : ∀ v ∈ condition.vars, f v = g v) : condition.rename f = condition.rename g := by
  cases condition with
  | hasAttribute var key => simp only [rename, agree var (by simp [vars])]
  | attributeEquals var key value => simp only [rename, agree var (by simp [vars])]
  | unsatisfiable => rfl

theorem Condition.rename_eq_unsatisfiable {f : String → String} {condition : Condition} :
    condition.rename f = unsatisfiable ↔ condition = unsatisfiable := by
  cases condition <;> simp [rename]

namespace Binding

theorem rename_congr {f g : String → String} {binding : Binding}
    (agree : ∀ v ∈ binding.introduced, f v = g v) : binding.rename f = binding.rename g := by
  cases binding with
  | members cls var => exact congrArg (members cls) (agree var List.mem_concat_self)
  | common sets var =>
      have renamed : sets.map (MemberSet.rename f) = sets.map (MemberSet.rename g) := by
        refine List.map_congr_left fun set hs => ?_
        have inside : set.var ∈ (common sets var).introduced :=
          List.mem_append_left _ (List.mem_map_of_mem hs)
        simp only [MemberSet.rename, agree set.var inside]
      have bound : var ∈ (common sets var).introduced := List.mem_concat_self
      simp only [rename, renamed, agree var bound]

theorem setVars_rename (f : String → String) (binding : Binding) :
    (binding.rename f).setVars = binding.setVars.map f := by
  cases binding with
  | members cls var => rfl
  | common sets var => simp [rename, setVars, MemberSet.rename]

end Binding

namespace Pattern

/-- The pattern with other names of nodes and sets. -/
def rename (f : String → String) (q : Pattern) : Pattern where
  bindings := q.bindings.map (Binding.rename f)
  parts := q.parts.map (Part.rename f)
  conditions := q.conditions.map (Condition.rename f)
  target := f q.target
  nodes := q.nodes.map f
  tally := q.tally

/-- The names of sets, in order. -/
def setNames (q : Pattern) : List String :=
  q.bindings.flatMap Binding.setVars

/-- The names of nodes and then those of sets. -/
def names (q : Pattern) : List String :=
  q.nodes ++ q.setNames

theorem setNames_rename (f : String → String) (q : Pattern) :
    (q.rename f).setNames = q.setNames.map f := by
  simp only [setNames, rename, List.flatMap_map, List.map_flatMap, Binding.setVars_rename]

/-- Only what becomes of the names in the pattern counts. -/
theorem Hygienic.rename_congr {q : Pattern} (h : q.Hygienic) {f g : String → String}
    (agree : ∀ v ∈ q.names, f v = g v) : q.rename f = q.rename g := by
  have nodes : ∀ v ∈ q.nodes, f v = g v := fun v hv => agree v (List.mem_append_left _ hv)
  have sets : ∀ b ∈ q.bindings, ∀ v ∈ b.setVars, f v = g v := fun b hb v hv =>
    agree v (List.mem_append_right _ (List.mem_flatMap.2 ⟨b, hb, hv⟩))
  have bindings : q.bindings.map (Binding.rename f) = q.bindings.map (Binding.rename g) := by
    refine List.map_congr_left fun b hb => Binding.rename_congr fun v hv => ?_
    rcases List.mem_append.1 hv with set | var
    · exact sets b hb v set
    · obtain rfl := List.mem_singleton.1 var
      exact nodes _ (h.bindings b hb).1
  have parts : q.parts.map (Part.rename f) = q.parts.map (Part.rename g) :=
    List.map_congr_left fun part hp => Part.rename_congr fun v hv =>
      nodes v ((h.nodes v).2 ⟨part, hp, hv⟩)
  have conditions : q.conditions.map (Condition.rename f) = q.conditions.map (Condition.rename g) :=
    List.map_congr_left fun condition hc => Condition.rename_congr fun v hv =>
      nodes v (h.conditions condition hc v hv)
  simp only [rename, bindings, parts, conditions, nodes _ h.target, List.map_congr_left nodes]

end Pattern

/-! ## Places -/

namespace Draft

open Context (nodeName nodeName_inj)

/-- The number of a new node, by its index among the new nodes. -/
def number (target : String) : Nat → Nat
  | 0 => freeNumber target 0
  | i + 1 => freeNumber target (number target i + 1)

/-- The name of a node, by its index: the target comes first, and then the new nodes. -/
def nodeAt (target : String) : Nat → String
  | 0 => target
  | i + 1 => nodeName (number target i)

theorem number_strictMono (target : String) : StrictMono (number target) :=
  strictMono_nat_of_lt_succ fun _ => le_freeNumber target _

theorem nodeName_number_ne (target : String) (i : Nat) : nodeName (number target i) ≠ target := by
  cases i <;> exact nodeName_freeNumber_ne target _

theorem nodeAt_injective (target : String) : Function.Injective (nodeAt target) := by
  intro i j same
  match i, j with
  | 0, 0 => rfl
  | 0, j + 1 => exact absurd same.symm (nodeName_number_ne target j)
  | i + 1, 0 => exact absurd same (nodeName_number_ne target i)
  | i + 1, j + 1 => exact congrArg _ ((number_strictMono target).injective (nodeName_inj.1 same))

theorem isNode_nodeAt (target : String) : ∀ i, IsNode target (nodeAt target i)
  | 0 => .inl rfl
  | i + 1 => .inr ⟨number target i, rfl⟩

/-- The name at a place: the index of a node, or the index of a node and that of a set on it. -/
def nameAt (target : String) : Nat ⊕ Nat × Nat → String :=
  Sum.elim (nodeAt target) fun place => setName target (nodeAt target place.1) place.2

theorem nameAt_injective (target : String) : Function.Injective (nameAt target) := by
  refine (nodeAt_injective target).sumElim (fun place other same => ?_) fun i place same => ?_
  · obtain ⟨nodes, indices⟩ := setName_inj same
    exact Prod.ext (nodeAt_injective target nodes) indices
  · exact setName_ne (isNode_nodeAt target i) same.symm

/-- Turns the name at a place under one target into the name at the same place under another. -/
noncomputable def retarget (s t : String) : String → String :=
  Function.extend (nameAt s) (nameAt t) id

variable {s t : String}

theorem retarget_nodeAt (i : Nat) : retarget s t (nodeAt s i) = nodeAt t i :=
  (nameAt_injective s).extend_apply (nameAt t) id (.inl i)

theorem retarget_target : retarget s t s = t :=
  retarget_nodeAt 0

theorem retarget_setName (i j : Nat) :
    retarget s t (setName s (nodeAt s i) j) = setName t (nodeAt t i) j :=
  (nameAt_injective s).extend_apply (nameAt t) id (.inr (i, j))

/-- The names with numbers below a bound, without the target. -/
def others (target : String) (bound : Nat) : List String :=
  ((List.range bound).map nodeName).filter (· ≠ target)

theorem others_freeNumber (target : String) (n : Nat) :
    others target (freeNumber target n + 1) = others target n ++ [nodeName (freeNumber target n)] := by
  unfold others freeNumber
  split
  · next taken =>
      have other : nodeName (n + 1) ≠ target := by
        rw [← taken, Ne, nodeName_inj]
        exact n.succ_ne_self
      simp [List.range_succ, taken, other]
  · next free => simp [List.range_succ, free]

/-- The new nodes are named by the numbers in order, without the target. -/
theorem exists_others (target : String) (count : Nat) :
    ∃ bound, (List.range count).map (fun i => nodeName (number target i)) = others target bound ∧
      freeNumber target bound = number target count := by
  induction count with
  | zero => exact ⟨0, rfl, rfl⟩
  | succ count ih =>
      obtain ⟨bound, names, free⟩ := ih
      refine ⟨number target count + 1, ?_, rfl⟩
      rw [← free, others_freeNumber, List.range_succ, List.map_append, names, free]
      rfl

/-! ## Drafts in step -/

/-- There are as many new nodes, and all nodes are named by their places. -/
structure Counted (target : String) (nodes : List String) (next count : Nat) : Prop where
  nodes : nodes = (List.range (count + 1)).map (nodeAt target)
  next : freeNumber target next = number target count

variable {mode : Mode} {node other : String} {depth : Nat} {d d' e e' : Draft}

theorem Counted.fresh_eq {count : Nat} (h : Counted d.target d.nodes d.next count) :
    d.fresh.1 = nodeAt d.target (count + 1) :=
  congrArg nodeName h.next

theorem Counted.fresh {count : Nat} (h : Counted d.target d.nodes d.next count) :
    Counted d.fresh.2.target d.fresh.2.nodes d.fresh.2.next (count + 1) where
  nodes := by
    show d.nodes ++ [d.fresh.1] = _
    rw [h.nodes, h.fresh_eq, List.range_succ (n := count + 1), List.map_append]
    rfl
  next := by
    show freeNumber d.target (freeNumber d.target d.next + 1) = _
    rw [h.next]
    rfl

/-- Two drafts have the same under two targets, with names by their places. -/
structure Retargeted (s t : String) (d e : Draft) : Prop where
  source : d.target = s
  target : e.target = t
  counted : ∃ count, Counted d.target d.nodes d.next count ∧ Counted e.target e.nodes e.next count
  bindings : e.bindings = d.bindings.map (Binding.rename (retarget s t))
  parts : e.parts = d.parts.map (Part.rename (retarget s t))
  conditions : e.conditions = d.conditions.map (Condition.rename (retarget s t))
  opened : e.opened = d.opened
  closed : e.closed = d.closed
  depth : e.depth = d.depth

namespace Retargeted

theorem start (s t : String) (depth : Nat) :
    Retargeted s t ((Draft.start s).enter depth) ((Draft.start t).enter depth) where
  source := rfl
  target := rfl
  counted := ⟨0, ⟨rfl, rfl⟩, ⟨rfl, rfl⟩⟩
  bindings := rfl
  parts := rfl
  conditions := rfl
  opened := rfl
  closed := rfl
  depth := rfl

theorem addPart (h : Retargeted s t d e) (part : Part) :
    Retargeted s t (d.addPart part) (e.addPart (part.rename (retarget s t))) :=
  { h with parts := by simp [Draft.addPart, h.parts] }

theorem addCondition (h : Retargeted s t d e) (condition : Condition) :
    Retargeted s t (d.addCondition condition)
      (e.addCondition (condition.rename (retarget s t))) :=
  { h with conditions := by simp [Draft.addCondition, h.conditions] }

theorem addBinding (h : Retargeted s t d e) (binding : Binding) :
    Retargeted s t (d.addBinding binding) (e.addBinding (binding.rename (retarget s t))) :=
  { h with bindings := by simp [Draft.addBinding, h.bindings] }

theorem enter (h : Retargeted s t d e) (depth : Nat) :
    Retargeted s t (d.enter depth) (e.enter depth) :=
  { h with
    opened := congrArg (· + 1) h.opened
    depth := congrArg (max · depth) h.depth }

theorem leave (h : Retargeted s t d e) : Retargeted s t d.leave e.leave :=
  { h with closed := congrArg (· + 1) h.closed }

/-- New nodes have the same place. -/
theorem fresh_eq (h : Retargeted s t d e) : e.fresh.1 = retarget s t d.fresh.1 := by
  obtain ⟨count, left, right⟩ := h.counted
  rw [left.fresh_eq, right.fresh_eq, h.source, h.target, retarget_nodeAt]

theorem fresh_place (h : Retargeted s t d e) : ∃ i, d.fresh.1 = nodeAt s i := by
  obtain ⟨count, left, _⟩ := h.counted
  exact ⟨count + 1, by rw [left.fresh_eq, h.source]⟩

theorem fresh (h : Retargeted s t d e) : Retargeted s t d.fresh.2 e.fresh.2 :=
  { h with counted := h.counted.imp' (· + 1) fun _ both => ⟨both.1.fresh, both.2.fresh⟩ }

theorem enterEdge (h : Retargeted s t d e) (node : String) (property : Uri) (depth : Nat) :
    Retargeted s t (d.enterEdge node property depth)
      (e.enterEdge (retarget s t node) property depth) := by
  have linked := (h.fresh.addPart (.edge node property d.fresh.1)).enter (depth + 1)
  rwa [Part.rename, ← h.fresh_eq] at linked

theorem addValueEdge (h : Retargeted s t d e) (node : String) (property individual : Uri) :
    Retargeted s t (d.addValueEdge node property individual)
      (e.addValueEdge (retarget s t node) property individual) := by
  have linked := h.fresh.addPart (.valueEdge node property d.fresh.1 individual)
  rwa [Part.rename, ← h.fresh_eq] at linked

theorem addNothing (h : Retargeted s t d e) (x : ClassExpression) :
    Retargeted s t (d.addNothing x) (e.addNothing x) := by
  have refuted : Retargeted s t d.refute e.refute := by
    have same : .unsatisfiable ∈ e.conditions ↔ .unsatisfiable ∈ d.conditions := by
      simp [h.conditions, Condition.rename_eq_unsatisfiable]
    unfold refute
    simp only [same]
    split
    · exact h
    · exact h.addCondition .unsatisfiable
  cases x with
  | nothing => exact h.addCondition .unsatisfiable
  | intersection operands =>
      simp only [Draft.addNothing]
      split
      · exact refuted
      · exact h
  | _ => exact h

/-- The sets of a node are at the same places. -/
theorem rename_ofClasses (place : ∃ i, node = nodeAt s i) (classes : List Uri) :
    (Binding.ofClasses s node classes).rename (retarget s t) =
      .ofClasses t (retarget s t node) classes := by
  obtain ⟨i, rfl⟩ := place
  have sets : (classes.mapIdx fun j cls => (⟨cls, setName s (nodeAt s i) j⟩ : MemberSet)).map
      (MemberSet.rename (retarget s t)) =
      classes.mapIdx fun j cls => ⟨cls, setName t (retarget s t (nodeAt s i)) j⟩ := by
    apply List.ext_getElem <;> simp [MemberSet.rename, retarget_setName, retarget_nodeAt]
  match classes, sets with
  | [], sets | _ :: _ :: _, sets => simp only [Binding.ofClasses, Binding.rename, sets]
  | [_], _ => rfl

/-- Classes are put on nodes at the same place. -/
theorem addClassesOf (h : Retargeted s t d e) (place : ∃ i, node = nodeAt s i)
    (same : other = retarget s t node) {x : ClassExpression}
    (added : d.addClassesOf mode node x = .ok d') (added' : e.addClassesOf mode other x = .ok e') :
    Retargeted s t d' e' := by
  subst same
  have before := h.addNothing x
  by_cases none : x.conjoinedClasses = []
  · rw [Draft.addClassesOf, none, addClasses_nil] at added added'
    cases added
    cases added'
    exact before
  · rw [addClasses_eq none added, addClasses_eq none added']
    cases mode with
    | direct => exact before.addPart (.node node x.conjoinedClasses)
    | inference =>
        have bound := before.addBinding (.ofClasses s node x.conjoinedClasses)
        rw [rename_ofClasses place] at bound
        simpa only [before.source, before.target] using bound

/-- Two walks over the same restrictions, from nodes at the same place, stay in step. -/
theorem walk {rs : List ClassExpression} (w : ClassExpression.Walk mode node depth rs d d')
    (h : Retargeted s t d e) (place : ∃ i, node = nodeAt s i) (same : other = retarget s t node)
    (w' : ClassExpression.Walk mode other depth rs e e') : Retargeted s t d' e' := by
  induction w generalizing other e e' with
  | done =>
      cases w'
      exact h
  | @objectSome node depth property _ _ d _ _ _ _ _ classes _ _ inner others =>
      cases w' with
      | objectSome _ classes' inner' others' =>
          have entered := h.enterEdge node property depth
          rw [← same] at entered
          have inScope := entered.addClassesOf h.fresh_place h.fresh_eq classes classes'
          have left := (inner inScope h.fresh_place h.fresh_eq inner').leave
          exact others left place same others'
  | objectHas _ _ others =>
      cases w' with
      | objectHas _ others' => exact others (same ▸ h.addValueEdge _ _ _) place same others'
  | dataSome _ _ others =>
      cases w' with
      | dataSome _ others' =>
          exact others (same ▸ h.addCondition (.hasAttribute _ _)) place same others'
  | dataHas _ _ _ others =>
      cases w' with
      | dataHas _ _ others' =>
          exact others (same ▸ h.addCondition (.attributeEquals _ _ _)) place same others'

/-- Finished drafts in step are one pattern, renamed. -/
theorem finish_eq (h : Retargeted s t d e) : e.finish = d.finish.rename (retarget s t) := by
  obtain ⟨count, left, right⟩ := h.counted
  have nodes : e.nodes = d.nodes.map (retarget s t) := by
    rw [left.nodes, right.nodes, List.map_map, h.source, h.target]
    exact List.map_congr_left fun i _ => (retarget_nodeAt i).symm
  have parts : e.finish.parts = d.finish.parts.map (Part.rename (retarget s t)) := by
    have root : retarget s t d.target = e.target := by rw [h.source, h.target, retarget_target]
    cases some : d.parts <;> simp [finish, h.parts, some, Part.rename, root]
  simp only [Pattern.rename]
  rw [← parts]
  simp [finish, nodes, h.bindings, h.conditions, h.opened, h.closed, h.depth, h.source, h.target,
    retarget_target]

end Retargeted

end Draft

/-! ## Patterns -/

namespace Pattern

/-- The first node is the target, and the others are named by the numbers in order, without the name of the
target. -/
structure NamedInOrder (q : Pattern) (name : String) : Prop where
  target : q.target = name
  nodes : ∃ bound, q.nodes = name :: Draft.others name bound

theorem namedInOrder_of_counted {name : String} {d : Draft} {count : Nat} (same : d.target = name)
    (h : Draft.Counted d.target d.nodes d.next count) : d.finish.NamedInOrder name where
  target := same
  nodes := by
    obtain ⟨bound, names, _⟩ := Draft.exists_others name count
    refine ⟨bound, ?_⟩
    show d.nodes = _
    rw [h.nodes, same, ← names, List.range_succ_eq_map, List.map_cons, List.map_map]
    rfl

/-- The pattern of an expression for one target is that for another one, renamed. -/
theorem retargeted_of_toPattern {mode : Mode} {s t : Option String} {e : ClassExpression}
    {p q : Pattern} (hp : e.toPattern mode s = .ok p) (hq : e.toPattern mode t = .ok q) :
    q = p.rename (Draft.retarget (s.getD "n0") (t.getD "n0")) ∧
      p.NamedInOrder (s.getD "n0") ∧ q.NamedInOrder (t.getD "n0") := by
  obtain ⟨d₁, d₂, classes, w, rfl⟩ := ClassExpression.walk_of_toPattern hp
  obtain ⟨e₁, e₂, classes', w', rfl⟩ := ClassExpression.walk_of_toPattern hq
  have start := Draft.Retargeted.start (s.getD "n0") (t.getD "n0") 1
  have root := (Draft.retarget_target (s := s.getD "n0") (t := t.getD "n0")).symm
  have inScope := start.addClassesOf ⟨0, rfl⟩ root classes classes'
  have inStep := (inScope.walk w ⟨0, rfl⟩ root w').leave
  obtain ⟨count, left, right⟩ := inStep.counted
  exact ⟨inStep.finish_eq, namedInOrder_of_counted inStep.source left,
    namedInOrder_of_counted inStep.target right⟩

/-- What a renaming makes of a pattern, an exchange of its names by position makes of it. -/
theorem Hygienic.exchange_names {q : Pattern} (h : q.Hygienic) (f : String → String) :
    q.rename (exchange q.names (q.rename f).names) = q.rename f := by
  have names : (q.rename f).names = q.names.map f := by
    rw [Pattern.names, setNames_rename, Pattern.names, List.map_append]
    rfl
  rw [names]
  exact h.rename_congr fun v hv => exchange_map hv

end Pattern

namespace Compiler

/-- The name of the target does not matter.  For two targets that are absent or can be names of variables,
an expression fails alike, or has two patterns with the same tally.  These have as many nodes and as many
sets, and become equal if each node and each set takes the name of the one at the same position.  After the
target, nodes are named `n0`, `n1` and so on, without the name of the target. -/
theorem target_only_renames (compiler : Compiler) (e : ClassExpression) (s t : Option String)
    (hs : ∀ name ∈ s, Query.VariableForm name) (ht : ∀ name ∈ t, Query.VariableForm name) :
    (∃ failure, compiler.pattern e s = .error failure ∧ compiler.pattern e t = .error failure) ∨
    ∃ p q, compiler.pattern e s = .ok p ∧ compiler.pattern e t = .ok q ∧
      p.tally = q.tally ∧
      p.nodes.length = q.nodes.length ∧ p.setNames.length = q.setNames.length ∧
      p.rename (exchange p.names q.names) = q ∧
      p.NamedInOrder (s.getD "n0") ∧ q.NamedInOrder (t.getD "n0") := by
  have first := compiler.pattern_meets e s
  have second := compiler.pattern_meets e t
  have alike : e.patternFault? s = e.patternFault? t := by
    unfold ClassExpression.patternFault?
    rw [ClassExpression.badTarget?_eq_none.2 hs, ClassExpression.badTarget?_eq_none.2 ht]
  rw [← alike] at second
  cases fault : e.patternFault? s with
  | some failure => exact .inl ⟨failure, first.error_iff.2 fault, second.error_iff.2 fault⟩
  | none =>
      obtain ⟨p, hp⟩ := first.ok_iff.2 fault
      obtain ⟨q, hq⟩ := second.ok_iff.2 fault
      obtain ⟨renamed, left, right⟩ := Pattern.retargeted_of_toPattern hp hq
      have exchanged := (Pattern.hygienic_of_toPattern hp).exchange_names
        (Draft.retarget (s.getD "n0") (t.getD "n0"))
      have sets := Pattern.setNames_rename (Draft.retarget (s.getD "n0") (t.getD "n0")) p
      rw [← renamed] at exchanged sets
      refine .inr ⟨p, q, hp, hq, ?_, ?_, ?_, exchanged, left, right⟩
      · rw [renamed, Pattern.rename]
      · rw [renamed, Pattern.rename, List.length_map]
      · rw [sets, List.length_map]

theorem target_only_renames_pairTwice :
    ∃ p q, (⟨{}, .inference, "closure"⟩ : Compiler).pattern .pairTwice (some "n0_set0") = .ok p ∧
      (⟨{}, .inference, "closure"⟩ : Compiler).pattern .pairTwice (some "n0") = .ok q ∧
      p.names = ["n0_set0", "n0", "n0_set0_set0", "n0_set0_set1", "n0_set0_", "n0_set1"] ∧
      q.names = ["n0", "n1", "n0_set0", "n0_set1", "n1_set0", "n1_set1"] ∧
      p.rename (exchange p.names q.names) = q := by
  have form : ∀ name ∈ some "n0_set0", Query.VariableForm name := by
    rintro name ⟨⟩
    exact Query.isVariable_iff.1 rfl
  have form' : ∀ name ∈ some "n0", Query.VariableForm name := by
    rintro name ⟨⟩
    exact Query.isVariable_iff.1 rfl
  obtain ⟨failure, failed, _⟩ | ⟨p, q, hp, hq, _, _, _, renamed, _⟩ :=
    target_only_renames ⟨{}, .inference, "closure"⟩ .pairTwice (some "n0_set0") (some "n0") form form'
  · cases failed
  · cases hp
    cases hq
    exact ⟨_, _, rfl, rfl, rfl, rfl, renamed⟩

end Compiler

end Ontograph
