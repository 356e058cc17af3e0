import Ontograph.Proofs.Query.Visits
import Ontograph.Query.Compiler

/-!
# What a pattern took

A pattern comes with a tally of its nodes, of the scopes that were entered and left, and of the most scopes
that were open at once.  The tally is kept by the way, but it is no more than a count of the normal form:
every restriction to a filler or to an individual gives one node, every restriction to a filler opens one
scope, and the scopes that are open at once are those of restrictions that stand in one another.

What a visit takes is added up from its parts (`Lowering.Costs`).  This needs that each part closes the scopes
which it opens, for only then does the next part begin with as many open scopes as the first.  The counters
themselves agree with the nodes and the open scopes of the context all along, so at the end they say what is
in the pattern.

Main statement: `Compiler.tally_counts_restrictions`.
-/

namespace Ontograph

/-! ## Counts -/

namespace ClassExpression

/-- Whether an expression is a restriction to a filler. -/
def isObjectSome : ClassExpression → Bool
  | objectSome _ _ => true
  | _ => false

/-- Whether an expression is a restriction to an individual. -/
def isObjectHas : ClassExpression → Bool
  | objectHas _ _ => true
  | _ => false

/-- How many expressions in an expression, itself included, are of a kind. -/
def count (kind : ClassExpression → Bool) (e : ClassExpression) : Nat :=
  e.subterms.countP kind

/-- How many expressions in some expressions are of a kind. -/
def countList (kind : ClassExpression → Bool) (l : List ClassExpression) : Nat :=
  (subtermsList l).countP kind

mutual

/-- The most restrictions to a filler that lie on one path into an expression. -/
def nesting : ClassExpression → Nat
  | objectSome _ filler => filler.nesting + 1
  | intersection operands => nestingList operands
  | union operands => nestingList operands
  | complement operand => operand.nesting
  | objectAll _ filler => filler.nesting
  | objectCardinality _ _ _ filler => filler.nesting
  | _ => 0

/-- The most restrictions to a filler that lie on one path into some expressions. -/
def nestingList : List ClassExpression → Nat
  | [] => 0
  | e :: rest => max e.nesting (nestingList rest)

end

variable {kind : ClassExpression → Bool}

theorem countList_cons (e : ClassExpression) (rest : List ClassExpression) :
    countList kind (e :: rest) = e.count kind + countList kind rest :=
  List.countP_append

theorem count_intersection {operands : List ClassExpression}
    (other : kind (intersection operands) = false) :
    (intersection operands).count kind = countList kind operands := by
  simp [count, countList, subterms, other]

theorem count_objectSome (property : Uri) (filler : ClassExpression) :
    (objectSome property filler).count kind =
      filler.count kind + if kind (objectSome property filler) then 1 else 0 :=
  List.countP_cons

/-- On a path there are fewer restrictions than expressions. -/
theorem nesting_lt_depth (e : ClassExpression) : e.nesting < e.depth := by
  have operands : ∀ {l : List ClassExpression}, (∀ e ∈ l, e.nesting < e.depth) →
      nestingList l ≤ depthList l := by
    intro l each
    induction l with
    | nil => exact Nat.le_refl 0
    | cons a rest ih =>
        obtain ⟨first, others⟩ := List.forall_mem_cons.1 each
        exact max_le_max first.le (ih others)
  induction e using induction with
  | intersection l ih | union l ih =>
      have := operands ih
      simp only [nesting, depth]
      omega
  | complement _ ih | objectSome _ _ ih | objectAll _ _ ih | objectCardinality _ _ _ _ ih =>
      simp only [nesting, depth]
      omega
  | _ => exact Nat.one_pos

end ClassExpression

/-! ## What a walk takes -/

namespace Context

/-- A context has more nodes than another, and so many more scopes were opened, of which so many were open
at once. -/
structure Takes (c d : Context) (nodes scopes nesting : Nat) : Prop where
  nodes : d.nodes.length = c.nodes.length + nodes
  opened : d.tally.opened = c.tally.opened + scopes
  depth : d.tally.depth = max c.tally.depth (c.scopes.length + nesting)

end Context

namespace Lowering

/-- A part of a walk takes so many nodes, opens so many scopes and has so many of them open at once, if it
does not fail. -/
def Costs (walk : Lowering) (nodes scopes nesting : Nat) : Prop :=
  ∀ c d : Context, c.scopes.length ≤ c.tally.depth → walk c = .ok () d →
    c.Takes d nodes scopes nesting

namespace Costs

/-- What is not counted is free. -/
theorem change {f : Context → Context} (h : ∀ c : Context, (f c).account = c.account) :
    Costs (modify f) 0 0 0 := by
  intro c d within walked
  cases walked
  have same := h c
  simp only [Context.account, Prod.mk.injEq] at same
  obtain ⟨-, nodes, tally⟩ := same
  constructor
  case nodes => rw [nodes, Nat.add_zero]
  case opened => rw [tally, Nat.add_zero]
  case depth => rw [tally, Nat.add_zero, Nat.max_eq_left within]

theorem done : Costs (pure ()) 0 0 0 :=
  change (f := id) fun _ => rfl

/-- Nothing is said of what fails. -/
theorem failed (failure : Failure) (nodes scopes nesting : Nat) :
    Costs (throw failure) nodes scopes nesting := by
  intro c d _ walked
  cases walked

theorem check {α : Type} (x : Except Failure α) : Costs (Lowering.check x) 0 0 0 := by
  cases x with
  | ok => exact done
  | error failure => exact failed failure 0 0 0

/-- Nodes and scopes of two parts are added.  The scopes that the first opens are closed when the second
begins, so they are not open at once. -/
theorem bind {x : Lowering} {f : Unit → Lowering} {n s k m t l : Nat} (restoring : Restoring x)
    (first : Costs x n s k) (second : Costs (f ()) m t l) :
    Costs (x >>= f) (n + m) (s + t) (max k l) := by
  intro c d within walked
  obtain ⟨c', ran, walked⟩ := bind_eq_ok.1 walked
  have before := first c c' within ran
  have scopes := (restoring.of_ok ran).scopes
  have deeper := before.depth
  have after := second c' d (by rw [scopes]; omega) walked
  constructor
  case nodes => rw [after.nodes, before.nodes, Nat.add_assoc]
  case opened => rw [after.opened, before.opened, Nat.add_assoc]
  case depth =>
    rw [after.depth, before.depth, scopes]
    omega

/-- Before something else a free part may be done. -/
theorem after_free {x : Lowering} {f : Unit → Lowering} {n s k : Nat} (restoring : Restoring x)
    (first : Costs x 0 0 0) (second : Costs (f ()) n s k) : Costs (x >>= f) n s k := by
  have both := bind restoring first second
  rwa [Nat.zero_add, Nat.zero_add, Nat.zero_max] at both

theorem addValueEdge (property individual : Uri) :
    Costs (modify (Context.addValueEdge property individual)) 1 0 0 := by
  intro c d within walked
  cases walked
  constructor
  case nodes => exact List.length_append
  case opened => rfl
  case depth => exact (Nat.max_eq_left within).symm

/-- A scope is one more, with one more node, and is around the scopes that are opened in it. -/
theorem scope {walk : Lowering} {n s k : Nat} (inner : Costs walk n s k) (property : Uri) :
    Costs (modify (Context.enterEdge property) >>= fun _ => walk.andLeave) (n + 1) (s + 1) (k + 1) := by
  intro c d within walked
  obtain ⟨_, entered, walked⟩ := bind_eq_ok.1 walked
  cases entered
  unfold andLeave at walked
  split at walked
  · next d' ran =>
      cases walked
      have inside := inner (c.enterEdge property) d' (Nat.le_max_right _ _) ran
      have nodes : (c.enterEdge property).nodes.length = c.nodes.length + 1 := List.length_append
      have opened : (c.enterEdge property).tally.opened = c.tally.opened + 1 := rfl
      have scopes : (c.enterEdge property).scopes.length = c.scopes.length + 1 := rfl
      have depth : (c.enterEdge property).tally.depth = max c.tally.depth (c.scopes.length + 1) := rfl
      constructor
      case nodes => rw [Context.nodes_leave, inside.nodes, nodes, Nat.add_right_comm, Nat.add_assoc]
      case opened => rw [Context.opened_leave, inside.opened, opened, Nat.add_right_comm, Nat.add_assoc]
      case depth =>
        rw [Context.depth_leave, inside.depth, depth, scopes]
        omega
  · cases walked

end Costs

end Lowering

namespace ClassExpression

variable {mode : Mode}

theorem visitClasses_costs (classes : List Uri) : (visitClasses mode classes).Costs 0 0 0 :=
  .after_free (.check _) (.check _) (.change (Context.account_addClasses classes))

theorem visitClassesOf_costs (e : ClassExpression) : (visitClassesOf mode e).Costs 0 0 0 :=
  .after_free (.change fun c => .of_account (Context.account_addNothing e c))
    (.change (Context.account_addNothing e)) (visitClasses_costs _)

/-- Visits of the restrictions of an expression take a node for every restriction to a filler or to an
individual, and a scope for every one to a filler. -/
theorem visitAll_costs (e : ClassExpression) : (visitAll mode e.restrictions).Costs
    (e.count isObjectSome + e.count isObjectHas) (e.count isObjectSome) e.nesting := by
  induction e using induction with
  | thing | nothing | named => exact .done
  | intersection operands ih =>
      rw [restrictions, count_intersection rfl, count_intersection rfl, nesting]
      induction operands with
      | nil => exact .done
      | cons a rest step =>
          obtain ⟨first, others⟩ := List.forall_mem_cons.1 ih
          rw [restrictionsList, visitAll_append, countList_cons, countList_cons, Nat.add_add_add_comm]
          exact .bind (visitAll_restoring a) first (step others)
  | objectSome property filler ih =>
      rw [restrictions, visitAll_singleton, visit_objectSome, count_objectSome, count_objectSome,
        Nat.add_right_comm]
      refine .after_free (.check _) (.check _) (.scope ?_ property)
      rw [visit_eq]
      exact .after_free (visitClassesOf_restoring filler) (visitClassesOf_costs filler) ih
  | objectHas property individual =>
      rw [restrictions, visitAll_singleton, visit]
      exact .after_free (.check _) (.check _) (.addValueEdge property individual)
  | dataSome property =>
      rw [restrictions, visitAll_singleton, visit]
      exact .after_free (.check _) (.check _) (.change fun c => Context.account_addCondition _ c)
  | dataHas property value =>
      rw [restrictions, visitAll_singleton, visit]
      exact .after_free (.check _) (.check _)
        (.after_free (.check _) (.check _) (.change fun c => Context.account_addCondition _ c))
  | union | complement | objectAll | objectCardinality | dataAll =>
      rw [restrictions, visitAll_singleton, visit]
      exact .failed _ _ _ _

/-- A visit costs what its restrictions cost. -/
theorem visit_costs (e : ClassExpression) : (e.visit mode).Costs
    (e.count isObjectSome + e.count isObjectHas) (e.count isObjectSome) e.nesting := by
  rw [visit_eq]
  exact .after_free (visitClassesOf_restoring e) (visitClassesOf_costs e) (visitAll_costs e)

end ClassExpression

/-! ## Finished patterns -/

/-- The tally of a pattern is a count of the restrictions in an expression. -/
structure Pattern.Counts (q : Pattern) (e : ClassExpression) : Prop where
  /-- The target is a node, and so is the end of every restriction to a filler or to an individual. -/
  tallied : q.tally.nodes = q.nodes.length
  nodes : q.nodes.length =
    1 + (e.count ClassExpression.isObjectSome + e.count ClassExpression.isObjectHas)
  /-- The expression has a scope, and so has every filler.  All scopes are left. -/
  opened : q.tally.opened = 1 + e.count ClassExpression.isObjectSome
  closed : q.tally.closed = q.tally.opened
  /-- The scopes of nested restrictions are open at once, and only these. -/
  depth : q.tally.depth = 1 + e.nesting
  bound : q.tally.depth ≤ e.depth

/-- A restriction in a restriction, next to one to an individual. -/
def ClassExpression.nestedPaths : ClassExpression :=
  intersection [objectSome "p" (intersection [objectHas "q" "a", objectSome "q" (named "A")]),
    objectSome "q" (named "B")]

namespace Compiler

/-- The tally of the pattern of an expression counts the restrictions in its normal form, whatever the mode
and the name of the target are. -/
theorem tally_counts_restrictions (compiler : Compiler) (e : ClassExpression) (target : Option String)
    (q : Pattern) (h : compiler.pattern e target = .ok q) : q.Counts e.normalized := by
  obtain ⟨c, visited, rfl⟩ := ClassExpression.visit_of_toPattern h
  have start := ClassExpression.inStep_begun target
  have restored := (ClassExpression.visit_restoring e.normalized).of_ok visited
  have taken := ClassExpression.visit_costs e.normalized _ c start.depth visited
  have begun := ClassExpression.account_begun target
  simp only [Context.account, Prod.mk.injEq] at begun
  obtain ⟨scopes, nodes, tally⟩ := begun
  -- The scope of the target is the only one that is still open after the visit.
  have stack := restored.scopes.trans scopes
  have closed : c.leave.scopes = [] := by rw [Context.leave_eq stack]
  have inStep := (restored.inStep start).leave
  have opened : c.leave.tally.opened = 1 + e.normalized.count ClassExpression.isObjectSome := by
    rw [Context.opened_leave, taken.opened, tally]
  have depth : c.leave.tally.depth = 1 + e.normalized.nesting := by
    rw [Context.depth_leave, taken.depth, tally, scopes]
    exact Nat.max_eq_right (Nat.le_add_right _ _)
  constructor
  case tallied => exact inStep.nodes
  case nodes =>
    show c.leave.nodes.length = _
    rw [Context.nodes_leave, taken.nodes, nodes]
    rfl
  case opened => exact opened
  case closed => exact (inStep.scopes.trans (by rw [closed]; rfl)).symm
  case depth => exact depth
  case bound =>
    show c.leave.tally.depth ≤ _
    rw [depth, Nat.add_comm]
    exact ClassExpression.nesting_lt_depth e.normalized

theorem tally_counts_restrictions_nestedPaths :
    ∃ q, (⟨{}, .inference, "closure"⟩ : Compiler).pattern .nestedPaths (some "n1") = .ok q ∧
      q.nodes = ["n1", "n0", "n2", "n3", "n4"] ∧ q.tally = ⟨5, 4, 4, 3⟩ ∧
      q.Counts ClassExpression.nestedPaths.normalized :=
  ⟨_, rfl, rfl, rfl,
    tally_counts_restrictions ⟨{}, .inference, "closure"⟩ .nestedPaths (some "n1") _ rfl⟩

end Compiler

end Ontograph
