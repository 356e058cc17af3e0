import Ontograph.Proofs.Query.Hygiene
import Ontograph.Proofs.Query.Visits

/-!
# Contexts and drafts

A visit looks up in its context which names are taken and which scope is the innermost.  A draft has neither,
and yet it comes to the same: the names that are taken are those of the nodes and of the sets in bindings,
so a name that is given out next is free unless the node to return has it; and the node that an expression is
about is that of the innermost scope, because every visit restores the open scopes.

`Context.Follows` is what the two have in common, and it is kept by every step.  So a visit and the addition to
the draft succeed together or fail in the same way (`visit_agrees`), and a pattern is that of a draft.

Main statements: `ClassExpression.toPattern_eq`, `ClassExpression.walk_of_toPattern` and
`Pattern.hygienic_of_toPattern`.
-/

namespace Ontograph

open Draft (freeNumber)
open ClassExpression (conjoinsNothingList)

namespace Context

/-- A context follows a draft: it has added the same, it is at a node with some scopes around it, and the names
that it has taken are those in the draft. -/
structure Follows (c : Context) (d : Draft) (node : String) (outer : List String) : Prop where
  target : c.target = d.target
  bindings : c.bindings = d.bindings
  parts : c.parts = d.parts
  conditions : c.conditions = d.conditions
  nodes : c.nodes = d.nodes
  tally : c.tally = ⟨d.nodes.length, d.opened, d.closed, d.depth⟩
  scopes : c.scopes = node :: outer
  /-- Scopes are opened for nodes. -/
  inside : ∀ v ∈ node :: outer, v ∈ d.nodes
  used : ∀ name, name ∈ c.used ↔ name ∈ d.nodes ∨ ∃ b ∈ d.bindings, name ∈ b.setVars
  /-- The numbers may differ where the node to return has the next name. -/
  next : freeNumber d.target c.next = freeNumber d.target d.next
  given : d.next ≤ c.next
  sound : d.Sound

variable {mode : Mode} {c : Context} {d : Draft} {node : String} {outer : List String}

theorem Follows.current (h : c.Follows d node outer) : c.current = node := by
  rw [Context.current, h.scopes]
  rfl

theorem Follows.here (h : c.Follows d node outer) : node ∈ d.nodes :=
  h.inside node List.mem_cons_self

/-! ## Nodes -/

/-- A numbered name that was not given out is taken by the node to return, if at all. -/
theorem Follows.nodeName_mem_used (h : c.Follows d node outer) (k : Nat) :
    nodeName (c.next + k) ∈ c.used ↔ nodeName (c.next + k) = d.target := by
  rw [h.used]
  constructor
  · rintro (node | ⟨b, hb, set⟩)
    · rcases h.sound.named _ node with same | ⟨n, before, same⟩
      · exact same
      · have number := nodeName_inj.1 same
        have given := h.given
        omega
    · obtain ⟨i, same⟩ := (h.sound.bindings b hb).2.setVars _ set
      exact absurd same.symm (Draft.setName_ne (.inr ⟨_, rfl⟩))
  · intro same
    exact .inl (same ▸ h.sound.target)

/-- The context gives a new node the number that the draft gives it. -/
theorem Follows.number (h : c.Follows d node outer) :
    c.next + firstFree c.used (fun k => nodeName (c.next + k)) = freeNumber d.target d.next := by
  rw [firstFree_of_target (injective_nodeName_add c.next) h.nodeName_mem_used, ← h.next, freeNumber,
    Nat.add_zero]
  split <;> rfl

theorem Follows.fresh (h : c.Follows d node outer) :
    c.fresh = (d.fresh.1, claim d.fresh.1 { c with next := d.fresh.2.next }) := by
  unfold Context.fresh
  rw [h.number]
  rfl

/-- A part that leads to a new node is added to both. -/
theorem Follows.addLink (h : c.Follows d node outer) (part : Part)
    (vars : part.vars = [node, d.fresh.1]) :
    (c.fresh.2.addPart part).Follows (d.fresh.2.addPart part) node outer := by
  rw [h.fresh]
  constructor
  case target => exact h.target
  case bindings => exact h.bindings
  case parts => exact congrArg (· ++ [part]) h.parts
  case conditions => exact h.conditions
  case nodes => exact congrArg (· ++ [d.fresh.1]) h.nodes
  case tally =>
    show ({ c.tally with nodes := c.tally.nodes + 1 } : Tally) = ⟨(d.nodes ++ [d.fresh.1]).length, _, _, _⟩
    rw [h.tally, List.length_append]
    rfl
  case scopes => exact h.scopes
  case inside => exact fun v hv => List.mem_append_left _ (h.inside v hv)
  case used =>
    intro name
    show name ∈ d.fresh.1 :: c.used ↔ name ∈ d.nodes ++ [d.fresh.1] ∨ ∃ b ∈ d.bindings, name ∈ b.setVars
    rw [List.mem_cons, h.used, List.mem_append, List.mem_singleton]
    exact or_left_comm.trans or_assoc.symm
  case next => rfl
  case given => exact Nat.le_refl _
  case sound => exact h.sound.addLink h.here vars

theorem Follows.addValueEdge (h : c.Follows d node outer) (property individual : Uri) :
    (c.addValueEdge property individual).Follows (d.addValueEdge node property individual) node
      outer := by
  have linked := h.addLink (.valueEdge node property d.fresh.1 individual) rfl
  have same : c.addValueEdge property individual =
      c.fresh.2.addPart (.valueEdge c.current property c.fresh.1 individual) := rfl
  rwa [same, h.current, show c.fresh.1 = d.fresh.1 by rw [h.fresh]]

/-! ## Scopes -/

theorem Follows.enter (h : c.Follows d node outer) {v : String} (hv : v ∈ d.nodes) :
    (c.enter v).Follows (d.enter (outer.length + 2)) v (node :: outer) := by
  have counted : (c.enter v).tally = { c.tally with
      opened := c.tally.opened + 1, depth := max c.tally.depth (c.scopes.length + 1) } := rfl
  exact { h with
    tally := by
      rw [counted, h.tally, h.scopes]
      rfl
    scopes := congrArg (v :: ·) h.scopes
    inside := List.forall_mem_cons.2 ⟨hv, h.inside⟩
    sound := { h.sound with } }

theorem Follows.enterEdge (h : c.Follows d node outer) (property : Uri) :
    (c.enterEdge property).Follows (d.enterEdge node property (outer.length + 1)) d.fresh.1
      (node :: outer) := by
  have linked := h.addLink (.edge node property d.fresh.1) rfl
  have same : c.enterEdge property =
      (c.fresh.2.addPart (.edge c.current property c.fresh.1)).enter c.fresh.1 := rfl
  rw [same, h.current, show c.fresh.1 = d.fresh.1 by rw [h.fresh]]
  exact linked.enter List.mem_concat_self

theorem Follows.leave {v : String} (h : c.Follows d v (node :: outer)) :
    c.leave.Follows d.leave node outer := by
  rw [leave_eq h.scopes]
  exact { h with
    tally := by
      show ({ c.tally with closed := c.tally.closed + 1 } : Tally) = _
      rw [h.tally]
      rfl
    scopes := rfl
    inside := (List.forall_mem_cons.1 h.inside).2
    sound := h.sound.leave }

/-- Both are finished as the same pattern. -/
theorem Follows.finish (h : c.Follows d node outer) : c.leave.finish = d.leave.finish := by
  rw [leave_eq h.scopes]
  simp only [Context.finish, Draft.finish, Draft.leave, h.target, h.bindings, h.parts, h.conditions,
    h.nodes, h.tally]
  rfl

/-! ## Classes -/

theorem Follows.addCondition (h : c.Follows d node outer) {condition : Condition}
    (vars : ∀ v ∈ condition.vars, v ∈ d.nodes) :
    (c.addCondition condition).Follows (d.addCondition condition) node outer :=
  { h with
    conditions := congrArg (· ++ [condition]) h.conditions
    sound := h.sound.addCondition vars }

/-- A condition on the current node is one on the node of the draft. -/
theorem Follows.addConditionAt (h : c.Follows d node outer) (condition : String → Condition)
    (vars : (condition node).vars = [node]) :
    (c.addCondition (condition c.current)).Follows (d.addCondition (condition node)) node outer := by
  rw [h.current]
  exact h.addCondition (vars ▸ List.forall_mem_singleton.2 h.here)

theorem Follows.refute (h : c.Follows d node outer) : c.refute.Follows d.refute node outer := by
  unfold Context.refute Draft.refute
  rw [h.conditions]
  split
  · exact h
  · exact h.addCondition (List.forall_mem_nil _)

theorem Follows.addNothing (h : c.Follows d node outer) (e : ClassExpression) :
    (c.addNothing e).Follows (d.addNothing e) node outer := by
  cases e with
  | nothing => exact h.addCondition (List.forall_mem_nil _)
  | intersection operands =>
      show (if conjoinsNothingList operands then c.refute else c).Follows
        (if conjoinsNothingList operands then d.refute else d) node outer
      split
      · exact h.refute
      · exact h
  | _ => exact h

/-- Of the names for a set, one is taken by the node to return, if at all, as long as the node has no
binding. -/
theorem Follows.setName_mem_used (h : c.Follows d node outer) (unbound : d.Unbound node) (i n : Nat) :
    setName node i n ∈ c.used ↔ setName node i n = d.target := by
  rw [h.used]
  constructor
  · rintro (isNode | ⟨b, hb, set⟩)
    · exact (h.sound.isNode isNode).resolve_right fun ⟨m, same⟩ => setName_ne_nodeName node i n m same
    · obtain ⟨j, same⟩ := (h.sound.bindings b hb).2.setVars _ set
      rw [Draft.setName_eq] at same
      exact absurd (List.mem_map.2 ⟨b, hb, (setName_inj same).1.symm⟩) unbound.2
  · intro same
    exact .inl (same ▸ h.sound.target)

/-- The names for sets are taken, and nothing else happens. -/
theorem freshSets_snd (classes : List Uri) : ∀ (index : Nat) (c : Context),
    (freshSets node index classes c).2 = { c with
      used := ((freshSets node index classes c).1.map MemberSet.var).reverse ++ c.used } := by
  induction classes with
  | nil => exact fun _ _ => rfl
  | cons cls rest ih =>
      intro index c
      show (freshSets node (index + 1) rest (c.freshSet node index).2).2 = _
      rw [ih]
      show _ = { c with used := (_ :: List.map _ _).reverse ++ c.used }
      rw [List.reverse_cons, List.append_assoc]
      rfl

/-- Where only the node to return may have the name of a set, the names are those that a draft gives. -/
theorem freshSets_fst {target : String} (classes : List Uri) : ∀ (index : Nat) (c : Context),
    (∀ i n, index ≤ i → (setName node i n ∈ c.used ↔ setName node i n = target)) →
    (freshSets node index classes c).1 =
      classes.mapIdx fun i cls => ⟨cls, Draft.setName target node (index + i)⟩ := by
  induction classes with
  | nil => exact fun _ _ _ => rfl
  | cons cls rest ih =>
      intro index c taken
      have name : (c.freshSet node index).1 = Draft.setName target node index := by
        rw [Draft.setName_eq, ← firstFree_of_target (injective_setName node index) fun n =>
          taken index n (Nat.le_refl index)]
        rfl
      have later : ∀ i n, index + 1 ≤ i →
          (setName node i n ∈ (c.freshSet node index).2.used ↔ setName node i n = target) := by
        intro i n after
        show setName node i n ∈ (c.freshSet node index).1 :: c.used ↔ _
        rw [List.mem_cons, taken i n (Nat.le_of_succ_le after)]
        refine or_iff_right fun same => ?_
        exact absurd (setName_inj same).2.1 (Nat.ne_of_gt after)
      show ⟨cls, (c.freshSet node index).1⟩ ::
        (freshSets node (index + 1) rest (c.freshSet node index).2).1 = _
      rw [ih _ _ later, name, List.mapIdx_cons]
      simp only [Nat.add_zero, Nat.add_assoc, Nat.add_comm 1]

theorem Follows.addBinding (h : c.Follows d node outer) (unbound : d.Unbound node) (binding : Binding)
    (var : binding.var = node) (numbered : binding.Numbered d.target) {used : List String}
    (taken : ∀ name, name ∈ used ↔ name ∈ binding.setVars ∨ name ∈ c.used) :
    (Context.addBinding binding { c with used := used }).Follows (d.addBinding binding) node outer :=
  { h with
    bindings := congrArg (· ++ [binding]) h.bindings
    used := by
      intro name
      show name ∈ used ↔ name ∈ d.nodes ∨ ∃ b ∈ d.bindings ++ [binding], name ∈ b.setVars
      have either : (∃ b ∈ d.bindings ++ [binding], name ∈ b.setVars) ↔
          (∃ b ∈ d.bindings, name ∈ b.setVars) ∨ name ∈ binding.setVars := by
        simp only [List.mem_append, List.mem_singleton, or_and_right, exists_or, exists_eq_left]
      rw [taken, h.used, either]
      exact or_left_comm.trans (or_congr_right or_comm)
    sound := h.sound.addBinding (var ▸ unbound) numbered }

theorem Follows.addMembers (h : c.Follows d node outer) (unbound : d.Unbound node) (cls : Uri) :
    (c.addBinding (.members cls c.current)).Follows (d.addBinding (.members cls node)) node outer := by
  rw [h.current]
  exact h.addBinding unbound (.members cls node) rfl trivial fun name =>
    (or_iff_right List.not_mem_nil).symm

theorem Follows.addSets (h : c.Follows d node outer) (unbound : d.Unbound node) {classes : List Uri}
    (nonempty : classes ≠ []) :
    (Context.addBinding (.common (freshSets c.current 0 classes c).1 c.current)
      (freshSets c.current 0 classes c).2).Follows
      (d.addBinding (.common (classes.mapIdx fun i cls => ⟨cls, Draft.setName d.target node i⟩) node))
      node outer := by
  have sets := freshSets_fst classes 0 c fun i n _ => h.setName_mem_used unbound i n
  simp only [Nat.zero_add] at sets
  rw [h.current, freshSets_snd, sets]
  refine h.addBinding unbound (.common _ node) rfl ⟨classes, nonempty, rfl⟩ fun name => ?_
  rw [List.mem_append, List.mem_reverse]
  rfl

theorem Follows.addNodePart (h : c.Follows d node outer) (labels : List Uri) :
    (c.addPart (.node c.current labels)).Follows (d.addPart (.node node labels)) node outer := by
  rw [h.current]
  exact { h with
    parts := congrArg (· ++ [Part.node node labels]) h.parts
    sound := h.sound.addNodePart h.here labels }

end Context

/-! ## Outcomes -/

/-- What a part of a walk and a step of a draft come to agrees: both fail in the same way, or the context
follows the draft. -/
inductive Agrees (node : String) (outer : List String) :
    EStateM.Result Failure Context Unit → Except Failure Draft → Prop where
  | ok {c : Context} {d : Draft} (follows : c.Follows d node outer) :
      Agrees node outer (.ok () c) (.ok d)
  | error (failure : Failure) (c : Context) : Agrees node outer (.error failure c) (.error failure)

namespace Agrees

variable {c : Context} {d : Draft} {node node' : String} {outer outer' : List String}

/-- What agrees goes on to agree. -/
theorem bind {x : Lowering} {f : Unit → Lowering} {y : Except Failure Draft}
    {g : Draft → Except Failure Draft} (first : Agrees node outer (x c) y)
    (second : ∀ {c d}, c.Follows d node outer → Agrees node' outer' (f () c) (g d)) :
    Agrees node' outer' ((x >>= f) c) (y >>= g) := by
  show Agrees node' outer' (EStateM.bind x f c) (Except.bind y g)
  unfold EStateM.bind
  generalize x c = result at first
  cases first with
  | ok follows => exact second follows
  | error failure c => exact .error failure c

/-- Both object to the same. -/
theorem check {α : Type} {x : Except Failure α} {walk : Lowering} {y : Except Failure Draft}
    (rest : Agrees node outer (walk c) y) :
    Agrees node outer ((Lowering.check x >>= fun _ => walk) c) (x >>= fun _ => y) := by
  cases x with
  | ok a => exact rest
  | error failure => exact .error failure c

/-- A scope is closed after what was done in it. -/
theorem scope {walk : Lowering} {v : String} {y : Except Failure Draft}
    (inner : Agrees v (node :: outer) (walk c) y) :
    Agrees node outer (walk.andLeave c) (y >>= fun d => .ok d.leave) := by
  unfold Lowering.andLeave
  generalize walk c = result at inner
  cases inner with
  | ok follows => exact .ok follows.leave
  | error failure c => exact .error failure c.leave

end Agrees

namespace ClassExpression

variable {mode : Mode} {c : Context} {d : Draft} {node : String} {outer : List String}

/-- Classes are put on a node without a binding. -/
theorem visitClasses_agrees (h : c.Follows d node outer) (unbound : d.Unbound node)
    (classes : List Uri) :
    Agrees node outer (visitClasses mode classes c) (d.addClasses mode node classes) := by
  refine Agrees.check ?_
  cases mode with
  | direct =>
      cases classes with
      | nil => exact .ok h
      | cons cls rest => exact .ok (h.addNodePart (cls :: rest))
  | inference =>
      rcases classes with _ | ⟨cls, _ | ⟨second, rest⟩⟩
      · exact .ok h
      · exact .ok (h.addMembers unbound cls)
      · exact .ok (h.addSets unbound (List.cons_ne_nil cls (second :: rest)))

theorem visitClassesOf_agrees (h : c.Follows d node outer) (unbound : d.Unbound node)
    (e : ClassExpression) :
    Agrees node outer (visitClassesOf mode e c) (d.addClassesOf mode node e) := by
  refine visitClasses_agrees (h.addNothing e) ?_ _
  rwa [Draft.Unbound, Draft.nodes_addNothing, Draft.bindings_addNothing]

/-- Visits of the restrictions of an expression come to what is added to the draft. -/
theorem visitAll_agrees (e : ClassExpression) (h : c.Follows d node outer) :
    Agrees node outer (visitAll mode e.restrictions c)
      (addAll mode node (outer.length + 1) e.restrictions d) := by
  induction e using induction generalizing c d node outer with
  | thing | nothing | named => exact .ok h
  | intersection operands ih =>
      rw [restrictions]
      induction operands generalizing c d with
      | nil => exact .ok h
      | cons a rest step =>
          obtain ⟨first, others⟩ := List.forall_mem_cons.1 ih
          rw [restrictionsList, visitAll_append, addAll_append]
          exact (first h).bind fun follows => step others follows
  | objectSome property filler ih =>
      rw [restrictions, visitAll_singleton, visit_objectSome, addAll_singleton, addTo_objectSome]
      have entered := h.enterEdge property
      have unbound := h.sound.unbound_enterEdge node property (outer.length + 1)
      have inner : Agrees d.fresh.1 (node :: outer) (filler.visit mode (c.enterEdge property))
          (filler.addTo mode d.fresh.1 (outer.length + 2) (d.enterEdge node property (outer.length + 1))) := by
        rw [visit_eq, addTo_eq]
        exact (visitClassesOf_agrees entered unbound filler).bind fun follows => ih follows
      exact .check inner.scope
  | objectHas property individual =>
      rw [restrictions, visitAll_singleton, visit, addAll_singleton, addTo]
      exact .check (.ok (h.addValueEdge property individual))
  | dataSome property =>
      rw [restrictions, visitAll_singleton, visit, addAll_singleton, addTo]
      exact .check (.ok (h.addConditionAt (.hasAttribute · property) rfl))
  | dataHas property value =>
      rw [restrictions, visitAll_singleton, visit, addAll_singleton, addTo]
      exact .check (.check (.ok (h.addConditionAt (.attributeEquals · property value) rfl)))
  | union | complement | objectAll | objectCardinality | dataAll =>
      rw [restrictions, visitAll_singleton, visit, addAll_singleton, addTo]
      exact .error _ c

/-- A visit of an expression comes to what is added to the draft. -/
theorem visit_agrees (e : ClassExpression) (h : c.Follows d node outer) (unbound : d.Unbound node) :
    Agrees node outer (e.visit mode c) (e.addTo mode node (outer.length + 1) d) := by
  rw [visit_eq, addTo_eq]
  exact (visitClassesOf_agrees h unbound e).bind fun follows => visitAll_agrees e follows

/-! ## Patterns -/

theorem begun_follows (target : Option String) : (begun target).Follows
    ((Draft.start (target.getD "n0")).enter 1) (target.getD "n0") [] := by
  have sound := Draft.Sound.start (target.getD "n0") 1
  have used : ∀ node name : String, name ∈ [node] ↔
      name ∈ [node] ∨ ∃ b ∈ ([] : List Binding), name ∈ b.setVars :=
    fun _ _ => (or_iff_left fun ⟨_, hb, _⟩ => absurd hb List.not_mem_nil).symm
  cases target with
  | none => exact ⟨rfl, rfl, rfl, rfl, rfl, rfl, rfl, fun _ hv => hv, used _, rfl, Nat.zero_le 1, sound⟩
  | some name =>
      exact ⟨rfl, rfl, rfl, rfl, rfl, rfl, rfl, fun _ hv => hv, used _, rfl, Nat.le_refl 0, sound⟩

theorem toPattern_eq (target : Option String) (e : ClassExpression) :
    e.toPattern mode target =
      if e.normalized.isThing || e.normalized.isNothing then
        .error (.unsupported (.bare e.normalized))
      else match badTarget? target with
        | some name => .error (.invalidIdentifier name)
        | none =>
            e.normalized.addTo mode (target.getD "n0") 1 ((Draft.start (target.getD "n0")).enter 1) >>=
              fun d => .ok d.leave.finish := by
  rw [toPattern_eq_visit]
  split
  · rfl
  · cases badTarget? target with
    | some name => rfl
    | none =>
        have agrees : Agrees (target.getD "n0") [] (e.normalized.visit mode (begun target))
            (e.normalized.addTo mode (target.getD "n0") 1
              ((Draft.start (target.getD "n0")).enter 1)) :=
          visit_agrees e.normalized (begun_follows target) (Draft.Sound.unbound_start _ 1)
        simp only
        generalize e.normalized.visit mode (begun target) = visited at agrees ⊢
        generalize e.normalized.addTo mode (target.getD "n0") 1 _ = added at agrees ⊢
        cases agrees with
        | ok follows => exact congrArg Except.ok follows.finish
        | error failure c => rfl

/-- A pattern comes from the walk of a normal form that is neither the top nor the bottom class. -/
theorem walk_of_toPattern {target : Option String} {e : ClassExpression} {q : Pattern}
    (h : e.toPattern mode target = .ok q) :
    ∃ d₁ d₂, ((Draft.start (target.getD "n0")).enter 1).addClassesOf mode (target.getD "n0")
        e.normalized = .ok d₁ ∧
      Walk mode (target.getD "n0") 1 e.normalized.restrictions d₁ d₂ ∧ q = d₂.leave.finish := by
  rw [toPattern_eq] at h
  split at h
  · cases h
  · split at h
    · cases h
    · obtain ⟨d₂, added, h⟩ := bind_eq_ok.1 h
      cases h
      rw [addTo_eq] at added
      obtain ⟨d₁, classes, restrictions⟩ := bind_eq_ok.1 added
      exact ⟨d₁, d₂, classes, walk_of_addAll restrictions, rfl⟩

end ClassExpression

namespace Pattern

/-- The variables of the pattern of an expression are in order. -/
theorem hygienic_of_toPattern {mode : Mode} {target : Option String} {e : ClassExpression}
    {q : Pattern} (h : e.toPattern mode target = .ok q) : q.Hygienic := by
  obtain ⟨d₁, d₂, classes, w, rfl⟩ := ClassExpression.walk_of_toPattern h
  have start := Draft.Sound.start (target.getD "n0") 1
  have unbound := Draft.Sound.unbound_start (target.getD "n0") 1
  have root := (Draft.Grows.addClassesOf classes).nodes unbound.1
  exact hygienic_finish (Draft.Sound.walk w (start.addClassesOf unbound classes) root).leave

end Pattern

end Ontograph
