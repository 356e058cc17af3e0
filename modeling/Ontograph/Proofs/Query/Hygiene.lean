import Ontograph.Proofs.Query.Naming
import Ontograph.Proofs.Query.Walk

/-!
# Hygiene of drafts

What a walk keeps true of a draft, whatever the expression is: the draft only grows (`Draft.Grows`), and
its variables are in order (`Draft.Sound`).  In order means that every variable used is a node of the
draft, that every node but the target was reached by an edge, and that no node is bound twice.

Main statements: `Draft.Grows.walk`, `Draft.Sound.walk` and, for finished patterns,
`Pattern.hygienic_finish`.
-/

namespace Ontograph

/-! ## Variables -/

/-- The variables of the nodes in a part. -/
def Part.vars : Part → List String
  | node var _ => [var]
  | edge source _ target => [source, target]
  | valueEdge source _ target _ => [source, target]

/-- The variables that a condition is about. -/
def Condition.vars : Condition → List String
  | hasAttribute var _ => [var]
  | attributeEquals var _ _ => [var]
  | unsatisfiable => []

namespace Binding

/-- The names for sets in a binding. -/
def setVars : Binding → List String
  | members _ _ => []
  | common sets _ => sets.map MemberSet.var

/-- The names that a binding introduces, in order. -/
def introduced (binding : Binding) : List String :=
  binding.setVars ++ [binding.var]

/-- The sets of a binding are those of some classes, named after the node. -/
def Numbered (target : String) : Binding → Prop
  | members _ _ => True
  | common sets var => ∃ classes : List Uri, classes ≠ [] ∧
      sets = classes.mapIdx fun i cls => ⟨cls, Draft.setName target var i⟩

/-- Names of sets are those of the node with some index. -/
theorem Numbered.setVars {target : String} {binding : Binding} (h : binding.Numbered target) :
    ∀ name ∈ binding.setVars, ∃ i, name = Draft.setName target binding.var i := by
  cases binding with
  | members cls var => exact fun name h => absurd h List.not_mem_nil
  | common sets var =>
      obtain ⟨classes, -, rfl⟩ := h
      intro name hn
      obtain ⟨set, hs, rfl⟩ := List.mem_map.1 hn
      obtain ⟨i, _, rfl⟩ := List.mem_mapIdx.1 hs
      exact ⟨i, rfl⟩

/-- No two sets of a binding have one name. -/
theorem Numbered.nodup_setVars {target : String} {binding : Binding}
    (h : binding.Numbered target) : binding.setVars.Nodup := by
  cases binding with
  | members cls var => exact List.nodup_nil
  | common sets var =>
      obtain ⟨classes, -, rfl⟩ := h
      refine List.pairwise_iff_getElem.2 fun i j _ _ before same => ?_
      simp only [Binding.setVars, List.getElem_map, List.getElem_mapIdx] at same
      exact Nat.ne_of_lt before (Draft.setName_inj same).2

end Binding

namespace Draft

open Context (nodeName nodeName_inj)

variable {mode : Mode} {node : String} {depth : Nat} {d d' d'' : Draft}

/-! ## What stays -/

@[simp] theorem nodes_addNothing (d : Draft) (e : ClassExpression) :
    (d.addNothing e).nodes = d.nodes := by
  rcases addNothing_cases e d with same | same
  · rw [same]
  · rw [same, addCondition]

@[simp] theorem bindings_addNothing (d : Draft) (e : ClassExpression) :
    (d.addNothing e).bindings = d.bindings := by
  rcases addNothing_cases e d with same | same
  · rw [same]
  · rw [same, addCondition]

/-- Classes are put on a node that is there. -/
theorem nodes_addClassesOf {e : ClassExpression} (added : d.addClassesOf mode node e = .ok d') :
    d'.nodes = d.nodes := by
  rcases addClasses_cases added with ⟨_, rfl⟩ | ⟨_, rfl⟩ | ⟨_, _, _, rfl⟩ | ⟨_, _, rfl⟩ <;>
    exact nodes_addNothing d e

/-! ## Growth -/

/-- A draft has what another has, and maybe more. -/
structure Grows (d d' : Draft) : Prop where
  target : d'.target = d.target
  nodes : d.nodes ⊆ d'.nodes
  bindings : d.bindings ⊆ d'.bindings
  parts : d.parts ⊆ d'.parts
  conditions : d.conditions ⊆ d'.conditions

namespace Grows

theorem refl (d : Draft) : d.Grows d :=
  ⟨rfl, List.Subset.refl _, List.Subset.refl _, List.Subset.refl _, List.Subset.refl _⟩

theorem trans (first : d.Grows d') (second : d'.Grows d'') : d.Grows d'' :=
  ⟨second.target.trans first.target, List.Subset.trans first.nodes second.nodes,
    List.Subset.trans first.bindings second.bindings, List.Subset.trans first.parts second.parts,
    List.Subset.trans first.conditions second.conditions⟩

theorem addCondition (d : Draft) (condition : Condition) : d.Grows (d.addCondition condition) :=
  { refl d with conditions := List.subset_append_left _ _ }

theorem addPart (d : Draft) (part : Part) : d.Grows (d.addPart part) :=
  { refl d with parts := List.subset_append_left _ _ }

theorem addBinding (d : Draft) (binding : Binding) : d.Grows (d.addBinding binding) :=
  { refl d with bindings := List.subset_append_left _ _ }

theorem addNothing (d : Draft) (e : ClassExpression) : d.Grows (d.addNothing e) := by
  rcases addNothing_cases e d with same | same
  · rw [same]
    exact refl d
  · rw [same]
    exact addCondition d _

theorem addClasses {classes : List Uri} (added : d.addClasses mode node classes = .ok d') :
    d.Grows d' := by
  rcases addClasses_cases added with ⟨_, rfl⟩ | ⟨_, rfl⟩ | ⟨_, _, _, rfl⟩ | ⟨_, _, rfl⟩
  · exact refl _
  · exact addPart _ _
  · exact addBinding _ _
  · exact addBinding _ _

theorem addClassesOf {e : ClassExpression} (added : d.addClassesOf mode node e = .ok d') :
    d.Grows d' :=
  (addNothing d e).trans (addClasses added)

theorem enterEdge (d : Draft) (node : String) (property : Uri) (depth : Nat) :
    d.Grows (d.enterEdge node property depth) :=
  { refl d with nodes := List.subset_append_left _ _, parts := List.subset_append_left _ _ }

theorem addValueEdge (d : Draft) (node : String) (property individual : Uri) :
    d.Grows (d.addValueEdge node property individual) :=
  { refl d with nodes := List.subset_append_left _ _, parts := List.subset_append_left _ _ }

theorem leave (d : Draft) : d.Grows d.leave :=
  { refl d with }

/-- A walk takes nothing away. -/
theorem walk {rs : List ClassExpression} (w : ClassExpression.Walk mode node depth rs d d') :
    d.Grows d' := by
  induction w with
  | done => exact refl _
  | objectSome quoted classes _ _ inner others =>
      exact (enterEdge _ _ _ _).trans ((addClassesOf classes).trans
        (inner.trans ((leave _).trans others)))
  | objectHas quoted _ others => exact (addValueEdge _ _ _ _).trans others
  | dataSome quoted _ others => exact (addCondition _ _).trans others
  | dataHas quoted written _ others => exact (addCondition _ _).trans others

end Grows

/-! ## Variables in order -/

/-- The variables of a draft are in order. -/
structure Sound (d : Draft) : Prop where
  /-- Nodes are the target and nodes with numbers already given. -/
  named : ∀ v ∈ d.nodes, v = d.target ∨ ∃ n < d.next, v = nodeName n
  target : d.target ∈ d.nodes
  bindings : ∀ b ∈ d.bindings, b.var ∈ d.nodes ∧ b.Numbered d.target
  distinct : (d.bindings.map Binding.var).Nodup
  parts : ∀ part ∈ d.parts, ∀ v ∈ part.vars, v ∈ d.nodes
  conditions : ∀ condition ∈ d.conditions, ∀ v ∈ condition.vars, v ∈ d.nodes
  /-- Nodes other than the target are in some part. -/
  reached : ∀ v ∈ d.nodes, v = d.target ∨ ∃ part ∈ d.parts, v ∈ part.vars
  /-- If there are parts, the target is in some of them too. -/
  rooted : d.parts = [] ∨ ∃ part ∈ d.parts, d.target ∈ part.vars

/-- The draft has a node that no binding binds. -/
def Unbound (node : String) (d : Draft) : Prop :=
  node ∈ d.nodes ∧ node ∉ d.bindings.map Binding.var

/-- A new node has a new name. -/
theorem Sound.fresh_notMem (h : d.Sound) : d.fresh.1 ∉ d.nodes := by
  intro taken
  rcases h.named _ taken with same | ⟨n, given, same⟩
  · exact nodeName_freeNumber_ne d.target d.next same
  · have number := nodeName_inj.1 same
    exact absurd given (Nat.not_lt.2 (number ▸ le_freeNumber d.target d.next))

namespace Sound

/-- Before the walk nothing is bound. -/
theorem unbound_start (target : String) (depth : Nat) :
    ((Draft.start target).enter depth).Unbound target :=
  ⟨List.mem_singleton.2 rfl, List.not_mem_nil⟩

theorem start (target : String) (depth : Nat) : ((Draft.start target).enter depth).Sound where
  named := by simp [Draft.start, Draft.enter]
  target := by simp [Draft.start, Draft.enter]
  bindings := by simp [Draft.start, Draft.enter]
  distinct := by simp [Draft.start, Draft.enter]
  parts := by simp [Draft.start, Draft.enter]
  conditions := by simp [Draft.start, Draft.enter]
  reached := by simp [Draft.start, Draft.enter]
  rooted := .inl rfl

theorem addCondition (h : d.Sound) {condition : Condition}
    (vars : ∀ v ∈ condition.vars, v ∈ d.nodes) : (d.addCondition condition).Sound where
  __ := h
  conditions := by
    intro c hc
    rcases List.mem_append.1 hc with old | new
    · exact h.conditions c old
    · rwa [List.mem_singleton.1 new]

/-- Where a part is added at a node, the target is in some part: either the node is the target, or it
was reached by a part before. -/
theorem rooted_of_source (h : d.Sound) {part : Part} (hn : node ∈ d.nodes)
    (source : node ∈ part.vars) : ∃ p ∈ d.parts ++ [part], d.target ∈ p.vars := by
  rcases h.reached node hn with rfl | ⟨earlier, he, _⟩
  · exact ⟨part, List.mem_concat_self, source⟩
  · rcases h.rooted with none | ⟨root, hroot, inside⟩
    · exact absurd he (none ▸ List.not_mem_nil)
    · exact ⟨root, List.mem_append_left _ hroot, inside⟩

/-- A part for a node of the draft. -/
theorem addNodePart (h : d.Sound) (hn : node ∈ d.nodes) (labels : List Uri) :
    (d.addPart (.node node labels)).Sound where
  named := h.named
  target := h.target
  bindings := h.bindings
  distinct := h.distinct
  parts := by
    intro p hp v hv
    rcases List.mem_append.1 hp with old | new
    · exact h.parts p old v hv
    · rw [List.mem_singleton.1 new] at hv
      rwa [List.mem_singleton.1 hv]
  conditions := h.conditions
  reached := fun v hv => (h.reached v hv).imp_right fun ⟨p, hp, inside⟩ =>
    ⟨p, List.mem_append_left _ hp, inside⟩
  rooted := .inr (h.rooted_of_source hn (List.mem_singleton.2 rfl))

/-- A part that leads from a node of the draft to a new one. -/
theorem addLink (h : d.Sound) (hn : node ∈ d.nodes) {part : Part}
    (vars : part.vars = [node, d.fresh.1]) : (d.fresh.2.addPart part).Sound where
  named := by
    intro v hv
    have mono : d.next ≤ freeNumber d.target d.next := le_freeNumber _ _
    rcases List.mem_append.1 hv with old | new
    · exact (h.named v old).imp_right fun ⟨n, given, same⟩ =>
        ⟨n, Nat.lt_succ_of_le (given.le.trans mono), same⟩
    · exact .inr ⟨_, Nat.lt_succ_self _, List.mem_singleton.1 new⟩
  target := List.mem_append_left _ h.target
  bindings := fun b hb => ⟨List.mem_append_left _ (h.bindings b hb).1, (h.bindings b hb).2⟩
  distinct := h.distinct
  parts := by
    intro p hp v hv
    rcases List.mem_append.1 hp with old | new
    · exact List.mem_append_left _ (h.parts p old v hv)
    · rw [List.mem_singleton.1 new, vars] at hv
      rcases List.mem_cons.1 hv with rfl | hv
      · exact List.mem_append_left _ hn
      · exact List.mem_append_right _ hv
  conditions := fun c hc v hv => List.mem_append_left _ (h.conditions c hc v hv)
  reached := by
    intro v hv
    rcases List.mem_append.1 hv with old | new
    · exact (h.reached v old).imp_right fun ⟨p, hp, inside⟩ =>
        ⟨p, List.mem_append_left _ hp, inside⟩
    · refine .inr ⟨part, List.mem_concat_self, ?_⟩
      rw [vars]
      exact List.mem_cons_of_mem _ new
  rooted := .inr (h.rooted_of_source hn (vars ▸ List.mem_cons_self))

/-- A binding for a node that no binding binds. -/
theorem addBinding (h : d.Sound) {binding : Binding} (unbound : d.Unbound binding.var)
    (numbered : binding.Numbered d.target) : (d.addBinding binding).Sound where
  named := h.named
  target := h.target
  bindings := by
    intro b hb
    rcases List.mem_append.1 hb with old | new
    · exact h.bindings b old
    · obtain rfl := List.mem_singleton.1 new
      exact ⟨unbound.1, numbered⟩
  distinct := by
    have apart : (d.bindings.map Binding.var).Disjoint [binding.var] :=
      List.disjoint_singleton.2 unbound.2
    rw [Draft.addBinding, List.map_append]
    exact h.distinct.append (List.nodup_singleton _) apart
  parts := h.parts
  conditions := h.conditions
  reached := h.reached
  rooted := h.rooted

theorem addNothing (h : d.Sound) (e : ClassExpression) : (d.addNothing e).Sound := by
  rcases addNothing_cases e d with same | same
  · rwa [same]
  · rw [same]
    exact h.addCondition fun _ hv => absurd hv List.not_mem_nil

theorem addClasses (h : d.Sound) {classes : List Uri} (unbound : d.Unbound node)
    (added : d.addClasses mode node classes = .ok d') : d'.Sound := by
  rcases addClasses_cases added with ⟨_, rfl⟩ | ⟨_, rfl⟩ | ⟨_, _, _, rfl⟩ | ⟨_, nonempty, rfl⟩
  · exact h
  · exact h.addNodePart unbound.1 _
  · exact h.addBinding unbound trivial
  · exact h.addBinding unbound ⟨classes, nonempty, rfl⟩

theorem addClassesOf (h : d.Sound) {e : ClassExpression} (unbound : d.Unbound node)
    (added : d.addClassesOf mode node e = .ok d') : d'.Sound := by
  refine (h.addNothing e).addClasses ?_ added
  rwa [Unbound, nodes_addNothing, bindings_addNothing]

theorem enterEdge (h : d.Sound) (hn : node ∈ d.nodes) (property : Uri) (depth : Nat) :
    (d.enterEdge node property depth).Sound := by
  have linked : (d.fresh.2.addPart (.edge node property d.fresh.1)).Sound := h.addLink hn rfl
  exact { linked with }

theorem addValueEdge (h : d.Sound) (hn : node ∈ d.nodes) (property individual : Uri) :
    (d.addValueEdge node property individual).Sound :=
  h.addLink hn rfl

theorem leave (h : d.Sound) : d.leave.Sound :=
  { h with }

/-- Where an edge leads to, nothing is bound. -/
theorem unbound_enterEdge (h : d.Sound) (node : String) (property : Uri) (depth : Nat) :
    (d.enterEdge node property depth).Unbound d.fresh.1 := by
  refine ⟨List.mem_concat_self, fun bound => ?_⟩
  obtain ⟨b, hb, same⟩ := List.mem_map.1 bound
  exact h.fresh_notMem (same ▸ (h.bindings b hb).1)

/-- A walk from a node of the draft leaves its variables in order. -/
theorem walk {rs : List ClassExpression} (w : ClassExpression.Walk mode node depth rs d d')
    (h : d.Sound) (hn : node ∈ d.nodes) : d'.Sound := by
  induction w with
  | done => exact h
  | @objectSome node depth property filler rest d d₁ d₂ d' name quoted classes walk _ inner others =>
      have entered := h.enterEdge hn property depth
      have unbound := h.unbound_enterEdge node property depth
      have grown := Grows.addClassesOf classes
      have after := inner (entered.addClassesOf unbound classes) (grown.nodes unbound.1)
      have kept := ((Grows.enterEdge d node property depth).trans grown).trans (Grows.walk walk)
      exact others after.leave (kept.nodes hn)
  | objectHas quoted _ others =>
      exact others (h.addValueEdge hn _ _) ((Grows.addValueEdge _ _ _ _).nodes hn)
  | dataSome quoted _ others =>
      have vars : ∀ v ∈ [_], v ∈ _ := List.forall_mem_singleton.2 hn
      exact others (h.addCondition vars) hn
  | dataHas quoted written _ others =>
      have vars : ∀ v ∈ [_], v ∈ _ := List.forall_mem_singleton.2 hn
      exact others (h.addCondition vars) hn

/-- Names of nodes are names of nodes under the target. -/
theorem isNode (h : d.Sound) {v : String} (hv : v ∈ d.nodes) : IsNode d.target v :=
  (h.named v hv).imp_right fun ⟨n, _, same⟩ => ⟨n, same⟩

/-- Names of sets are no nodes. -/
theorem setVars_notMem (h : d.Sound) {b : Binding} (hb : b ∈ d.bindings) :
    ∀ name ∈ b.setVars, name ∉ d.nodes := by
  intro name hn taken
  obtain ⟨i, rfl⟩ := (h.bindings b hb).2.setVars name hn
  exact setName_ne (h.isNode taken) rfl

/-- No name is introduced twice by bindings. -/
theorem nodup_introduced (h : d.Sound) : (d.bindings.flatMap Binding.introduced).Nodup := by
  have each : ∀ b ∈ d.bindings, b.introduced.Nodup := by
    intro b hb
    obtain ⟨node, numbered⟩ := h.bindings b hb
    refine numbered.nodup_setVars.append (List.nodup_singleton _) ?_
    exact List.disjoint_singleton.2 fun taken => h.setVars_notMem hb _ taken node
  have apart : ∀ a ∈ d.bindings, ∀ b ∈ d.bindings, a.var ≠ b.var →
      a.introduced.Disjoint b.introduced := by
    intro a ha b hb differ name inA inB
    rcases List.mem_append.1 inA with setA | varA <;> rcases List.mem_append.1 inB with setB | varB
    · obtain ⟨i, rfl⟩ := (h.bindings a ha).2.setVars name setA
      obtain ⟨j, same⟩ := (h.bindings b hb).2.setVars _ setB
      exact differ (setName_inj same).1
    · obtain rfl := List.mem_singleton.1 varB
      exact h.setVars_notMem ha _ setA (h.bindings b hb).1
    · obtain rfl := List.mem_singleton.1 varA
      exact h.setVars_notMem hb _ setB (h.bindings a ha).1
    · exact differ ((List.mem_singleton.1 varA).symm.trans (List.mem_singleton.1 varB))
  refine List.nodup_flatMap.2 ⟨each, ?_⟩
  exact (List.pairwise_map.1 h.distinct).imp_of_mem fun ha hb differ => apart _ ha _ hb differ

end Sound

end Draft

/-! ## Finished patterns -/

namespace Pattern

/-- The variables of a pattern are in order: every node is matched by some part, only nodes are used,
and the bindings introduce names that are all different. -/
structure Hygienic (q : Pattern) : Prop where
  target : q.target ∈ q.nodes
  nodes : ∀ v, v ∈ q.nodes ↔ ∃ part ∈ q.parts, v ∈ part.vars
  bindings : ∀ b ∈ q.bindings, b.var ∈ q.nodes ∧ b.Numbered q.target
  sets : ∀ b ∈ q.bindings, ∀ name ∈ b.setVars, name ∉ q.nodes
  introduced : (q.bindings.flatMap Binding.introduced).Nodup
  conditions : ∀ condition ∈ q.conditions, ∀ v ∈ condition.vars, v ∈ q.nodes

theorem hygienic_finish {d : Draft} (h : d.Sound) : d.finish.Hygienic where
  target := h.target
  nodes := by
    intro v
    constructor
    · intro hv
      rcases h.rooted with none | ⟨root, hroot, rooted⟩
      · refine ⟨.node d.target [], Draft.mem_finish_parts.2 (.inr ⟨none, rfl⟩), ?_⟩
        rcases h.reached v hv with rfl | ⟨p, hp, _⟩
        · exact List.mem_singleton.2 rfl
        · exact absurd hp (none ▸ List.not_mem_nil)
      · rcases h.reached v hv with rfl | ⟨p, hp, inside⟩
        · exact ⟨root, Draft.mem_finish_parts.2 (.inl hroot), rooted⟩
        · exact ⟨p, Draft.mem_finish_parts.2 (.inl hp), inside⟩
    · rintro ⟨p, hp, inside⟩
      rcases Draft.mem_finish_parts.1 hp with old | ⟨_, rfl⟩
      · exact h.parts p old v inside
      · obtain rfl := List.mem_singleton.1 inside
        exact h.target
  bindings := h.bindings
  sets := fun b hb => h.setVars_notMem hb
  introduced := h.nodup_introduced
  conditions := h.conditions

end Pattern

end Ontograph
