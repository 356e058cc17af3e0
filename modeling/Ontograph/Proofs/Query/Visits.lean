import Ontograph.Proofs.Ontology.Conjuncts

/-!
# Visits

A visit of an expression adds what its conjuncts say to the context: first that there is nothing, then the
classes, and then the restrictions in order (`visit_eq`).

A restriction `∃p.C` opens a scope, and the scope is closed when `C` was visited, whether that went well or
not.  So after a visit the same scopes are open as before, with the same nodes, and the counters are still in
step with what they count (`Context.Restores`).

Main statement: `visit_restoring` (a visit restores the open scopes, also if it fails).
-/

namespace Ontograph

namespace Context

/-- Adds that the current node does not exist, if an expression says so by one of its conjuncts. -/
def addNothing (e : ClassExpression) (c : Context) : Context :=
  match e with
  | .nothing => c.addCondition .unsatisfiable
  | e => if e.conjoinsNothing then c.refute else c

end Context

/-! ## Classes first, restrictions after -/

namespace ClassExpression

variable {mode : Mode}

/-- Adds all that an expression says about the current node apart from its restrictions. -/
def visitClassesOf (mode : Mode) (e : ClassExpression) : Lowering := do
  modify (Context.addNothing e)
  visitClasses mode e.conjoinedClasses

/-- Visits restrictions in order. -/
def visitAll (mode : Mode) (rs : List ClassExpression) : Lowering :=
  rs.forM (visit mode)

@[simp] theorem visitAll_nil : visitAll mode [] = pure () := rfl

@[simp] theorem visitAll_singleton (r : ClassExpression) : visitAll mode [r] = r.visit mode := by
  simp [visitAll]

theorem visitAll_append (rs ts : List ClassExpression) :
    visitAll mode (rs ++ ts) = visitAll mode rs >>= fun _ => visitAll mode ts :=
  List.forM_append

theorem visitOperands_cons (e : ClassExpression) (rest : List ClassExpression) :
    visitOperands mode (e :: rest) = visitOperands mode [e] >>= fun _ => visitOperands mode rest := by
  cases e <;> simp [visitOperands]

/-- Operands are visited as the restrictions among their conjuncts. -/
theorem visitOperands_eq_visitAll (l : List ClassExpression) :
    visitOperands mode l = visitAll mode (restrictionsList l) := by
  refine operands_eq_restrictions (fun first second => first >>= fun _ => second) ?_ visitOperands_cons
    visitAll_append (fun operands => ?_) (fun e other => ?_) l
  · rw [visitOperands, visitAll_nil]
  · rw [visitOperands, visitOperands]
    exact bind_pure _
  · cases e with
    | intersection operands => exact absurd rfl (other operands)
    | _ => simp [visitOperands, restrictions]

/-- An expression is visited as its classes and then its restrictions. -/
theorem visit_eq (e : ClassExpression) :
    e.visit mode = visitClassesOf mode e >>= fun _ => visitAll mode e.restrictions := by
  cases e with
  | intersection operands =>
      have added : Context.addNothing (intersection operands) =
          fun c => if conjoinsNothingList operands then c.refute else c := rfl
      rw [visit, visitOperands_eq_visitAll, visitClassesOf, conjoinedClasses, restrictions, added]
      cases conjoinsNothingList operands <;> rfl
  | thing | nothing => cases mode <;> rfl
  | named uri =>
      rw [visit, restrictions, visitAll_nil, bind_pure_unit]
      rfl
  | _ =>
      rw [restrictions, visitAll_singleton]
      cases mode <;> rfl

theorem visit_objectSome (property : Uri) (filler : ClassExpression) :
    (objectSome property filler).visit mode =
      Lowering.check (Query.uriName property) >>= fun _ => modify (Context.enterEdge property) >>=
        fun _ => (filler.visit mode).andLeave := by
  rw [visit]

end ClassExpression

/-! ## What is counted -/

namespace Context

variable {mode : Mode} {c d d' : Context}

/-- What a walk counts, and the counts. -/
def account (c : Context) : List String × List String × Tally :=
  (c.scopes, c.nodes, c.tally)

theorem account_addCondition (condition : Condition) (c : Context) :
    (c.addCondition condition).account = c.account := rfl

theorem account_refute (c : Context) : c.refute.account = c.account := by
  unfold refute
  split <;> rfl

theorem account_addNothing (e : ClassExpression) (c : Context) :
    (c.addNothing e).account = c.account := by
  unfold addNothing
  split
  · exact account_addCondition _ c
  · split
    · exact account_refute c
    · rfl

theorem account_freshSets (node : String) (classes : List Uri) :
    ∀ (index : Nat) (c : Context), (freshSets node index classes c).2.account = c.account := by
  induction classes with
  | nil => exact fun _ _ => rfl
  | cons cls rest ih => exact fun index c => ih (index + 1) (c.freshSet node index).2

/-- Classes need no nodes and no scopes. -/
theorem account_addClasses (classes : List Uri) (c : Context) :
    (c.addClasses mode classes).account = c.account := by
  unfold addClasses
  split
  · rfl
  · rfl
  · rfl
  · exact account_freshSets c.current _ 0 c

/-- The counters are in step with what they count: there are as many nodes as were counted, as many scopes
are open as were opened and not closed, and no more than ever were open at once. -/
structure InStep (c : Context) : Prop where
  nodes : c.tally.nodes = c.nodes.length
  scopes : c.tally.opened = c.tally.closed + c.scopes.length
  depth : c.scopes.length ≤ c.tally.depth

theorem InStep.of_account (h : c.InStep) (same : d.account = c.account) : d.InStep := by
  simp only [account, Prod.mk.injEq] at same
  obtain ⟨scopes, nodes, tally⟩ := same
  constructor
  case nodes => rw [tally, nodes, h.nodes]
  case scopes => rw [tally, scopes, h.scopes]
  case depth => rw [tally, scopes]; exact h.depth

theorem InStep.claim (h : c.InStep) (name : String) : (c.claim name).InStep where
  nodes := by
    show c.tally.nodes + 1 = (c.nodes ++ [name]).length
    rw [h.nodes, List.length_append, List.length_singleton]
  scopes := h.scopes
  depth := h.depth

theorem InStep.enter (h : c.InStep) (node : String) : (c.enter node).InStep where
  nodes := h.nodes
  scopes := congrArg (· + 1) h.scopes
  depth := Nat.le_max_right _ _

theorem InStep.enterEdge (h : c.InStep) (property : Uri) : (c.enterEdge property).InStep :=
  ((h.claim c.fresh.1).enter c.fresh.1).of_account rfl

theorem InStep.addValueEdge (h : c.InStep) (property individual : Uri) :
    (c.addValueEdge property individual).InStep :=
  (h.claim c.fresh.1).of_account rfl

/-- Where a scope is open, the innermost one is closed and counted. -/
theorem leave_eq {node : String} {outer : List String} (h : c.scopes = node :: outer) :
    c.leave = { c with scopes := outer, tally := { c.tally with closed := c.tally.closed + 1 } } := by
  unfold leave
  rw [h]

@[simp] theorem nodes_leave (c : Context) : c.leave.nodes = c.nodes := by
  unfold leave
  split <;> rfl

@[simp] theorem opened_leave (c : Context) : c.leave.tally.opened = c.tally.opened := by
  unfold leave
  split <;> rfl

@[simp] theorem depth_leave (c : Context) : c.leave.tally.depth = c.tally.depth := by
  unfold leave
  split <;> rfl

theorem InStep.leave (h : c.InStep) : c.leave.InStep := by
  cases stack : c.scopes with
  | nil =>
      unfold Context.leave
      rwa [stack]
  | cons node outer =>
      have scopes := h.scopes
      have depth := h.depth
      rw [stack, List.length_cons] at scopes depth
      rw [leave_eq stack]
      constructor
      case nodes => exact h.nodes
      case scopes =>
        show c.tally.opened = c.tally.closed + 1 + outer.length
        omega
      case depth => exact Nat.le_of_succ_le depth

/-- A context has the open scopes of another, and counters that are in step if those of the other are. -/
structure Restores (c d : Context) : Prop where
  scopes : d.scopes = c.scopes
  inStep : c.InStep → d.InStep

namespace Restores

theorem refl (c : Context) : c.Restores c :=
  ⟨rfl, id⟩

theorem trans (first : c.Restores d) (second : d.Restores d') : c.Restores d' :=
  ⟨second.scopes.trans first.scopes, second.inStep ∘ first.inStep⟩

theorem of_account (same : d.account = c.account) : c.Restores d :=
  ⟨congrArg Prod.fst same, fun h => h.of_account same⟩

/-- A scope that was opened and has been restored is closed again. -/
theorem leave {property : Uri} (h : (c.enterEdge property).Restores d) : c.Restores d.leave := by
  have stack : d.scopes = c.fresh.1 :: c.scopes := h.scopes
  refine ⟨?_, fun before => (h.inStep (before.enterEdge property)).leave⟩
  rw [leave_eq stack]

end Restores

end Context

/-! ## Scopes are restored -/

namespace Lowering

/-- Two parts succeed if the first does and the second does after it. -/
theorem bind_eq_ok {x : Lowering} {f : Unit → Lowering} {c d : Context} :
    (x >>= f) c = .ok () d ↔ ∃ c', x c = .ok () c' ∧ f () c' = .ok () d := by
  show EStateM.bind x f c = .ok () d ↔ _
  unfold EStateM.bind
  cases x c <;> simp

/-- The context after a part of a walk, whether it failed or not. -/
def after (walk : Lowering) (c : Context) : Context :=
  match walk c with
  | .ok _ d => d
  | .error _ d => d

/-- A part of a walk closes the scopes that it opens and no others, and counts what it does. -/
def Restoring (walk : Lowering) : Prop :=
  ∀ c : Context, c.Restores (walk.after c)

namespace Restoring

theorem of_ok {walk : Lowering} (h : Restoring walk) {c d : Context} (walked : walk c = .ok () d) :
    c.Restores d := by
  have restored := h c
  rwa [after, walked] at restored

theorem done : Restoring (pure ()) :=
  Context.Restores.refl

theorem failed (failure : Failure) : Restoring (throw failure) :=
  Context.Restores.refl

theorem check {α : Type} (x : Except Failure α) : Restoring (Lowering.check x) := by
  cases x with
  | ok => exact done
  | error failure => exact failed failure

theorem change {f : Context → Context} (h : ∀ c : Context, c.Restores (f c)) :
    Restoring (modify f) :=
  h

/-- Of two parts the second is not begun if the first fails. -/
theorem bind {x : Lowering} {f : Unit → Lowering} (first : Restoring x) (second : Restoring (f ())) :
    Restoring (x >>= f) := by
  intro c
  have before := first c
  unfold after at before ⊢
  show c.Restores (match EStateM.bind x f c with | .ok _ d => d | .error _ d => d)
  unfold EStateM.bind
  cases h : x c with
  | ok u d =>
      rw [h] at before
      exact before.trans (second d)
  | error failure d =>
      rw [h] at before
      exact before

/-- The scope of a new node is closed after what is done in it, whether that fails or not. -/
theorem scope {walk : Lowering} (inner : Restoring walk) (property : Uri) :
    Restoring (modify (Context.enterEdge property) >>= fun _ => walk.andLeave) := by
  intro c
  have inside := (inner (c.enterEdge property)).leave
  unfold after at inside ⊢
  show c.Restores (match walk.andLeave (c.enterEdge property) with | .ok _ d => d | .error _ d => d)
  unfold andLeave
  cases h : walk (c.enterEdge property) <;> rw [h] at inside <;> exact inside

end Restoring

end Lowering

namespace ClassExpression

variable {mode : Mode}

theorem visitClasses_restoring (classes : List Uri) : (visitClasses mode classes).Restoring :=
  (Lowering.Restoring.check _).bind
    (.change fun c => .of_account (Context.account_addClasses classes c))

theorem visitClassesOf_restoring (e : ClassExpression) : (visitClassesOf mode e).Restoring :=
  Lowering.Restoring.bind (.change fun c => .of_account (Context.account_addNothing e c))
    (visitClasses_restoring _)

/-- Visits of the restrictions of an expression restore the open scopes. -/
theorem visitAll_restoring (e : ClassExpression) : (visitAll mode e.restrictions).Restoring := by
  induction e using induction with
  | thing | nothing | named => exact .done
  | intersection operands ih =>
      rw [restrictions]
      induction operands with
      | nil => exact .done
      | cons a rest step =>
          obtain ⟨first, others⟩ := List.forall_mem_cons.1 ih
          rw [restrictionsList, visitAll_append]
          exact first.bind (step others)
  | objectSome property filler ih =>
      rw [restrictions, visitAll_singleton, visit_objectSome]
      refine (Lowering.Restoring.check _).bind (.scope ?_ property)
      rw [visit_eq]
      exact (visitClassesOf_restoring filler).bind ih
  | objectHas property individual =>
      rw [restrictions, visitAll_singleton, visit]
      exact (Lowering.Restoring.check _).bind
        (.change fun c => ⟨rfl, fun h => h.addValueEdge property individual⟩)
  | dataSome property =>
      rw [restrictions, visitAll_singleton, visit]
      exact (Lowering.Restoring.check _).bind
        (.change fun c => .of_account (Context.account_addCondition _ c))
  | dataHas property value =>
      rw [restrictions, visitAll_singleton, visit]
      exact (Lowering.Restoring.check _).bind ((Lowering.Restoring.check _).bind
        (.change fun c => .of_account (Context.account_addCondition _ c)))
  | union | complement | objectAll | objectCardinality | dataAll =>
      rw [restrictions, visitAll_singleton, visit]
      exact .failed _

/-- A visit restores the open scopes and keeps the counters in step, also if it fails. -/
theorem visit_restoring (e : ClassExpression) : (e.visit mode).Restoring := by
  rw [visit_eq]
  exact (visitClassesOf_restoring e).bind (visitAll_restoring e)

/-! ## Patterns -/

/-- The first name, if any, that is chosen for the node to return and cannot be one. -/
def badTarget? (target : Option String) : Option String :=
  target.filter fun name => !Query.isVariable name

/-- The context in which an expression is visited: the scope of the node to return is open. -/
def begun (target : Option String) : Context :=
  (Context.start target).enter (Context.start target).target

/-- There is one node when the visit begins, and its scope is the only one. -/
theorem account_begun (target : Option String) : (begun target).account =
    ([(Context.start target).target], [(Context.start target).target], ⟨1, 1, 0, 1⟩) := by
  cases target <;> rfl

theorem inStep_begun (target : Option String) : (begun target).InStep := by
  cases target <;> exact ⟨rfl, rfl, Nat.le_refl 1⟩

/-- The pattern is that of the context after the visit. -/
theorem toPattern_eq_visit (target : Option String) (e : ClassExpression) :
    e.toPattern mode target =
      if e.normalized.isThing || e.normalized.isNothing then
        .error (.unsupported (.bare e.normalized))
      else match badTarget? target with
        | some name => .error (.invalidIdentifier name)
        | none =>
            match e.normalized.visit mode (begun target) with
            | .ok _ c => .ok c.leave.finish
            | .error failure _ => .error failure := by
  unfold toPattern
  simp only
  split
  · rfl
  · cases target with
    | none => rfl
    | some name =>
        cases h : Query.isVariable name <;> simp [badTarget?, Option.filter, h] <;> rfl

/-- A pattern comes from a visit of the normal form. -/
theorem visit_of_toPattern {target : Option String} {e : ClassExpression} {q : Pattern}
    (h : e.toPattern mode target = .ok q) :
    ∃ c, e.normalized.visit mode (begun target) = .ok () c ∧ q = c.leave.finish := by
  rw [toPattern_eq_visit] at h
  split at h
  · cases h
  · split at h
    · cases h
    · split at h
      · next visited =>
          cases h
          exact ⟨_, visited, rfl⟩
      · cases h

end ClassExpression

end Ontograph
