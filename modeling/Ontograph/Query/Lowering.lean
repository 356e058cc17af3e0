import Ontograph.Config
import Ontograph.Query.Name
import Ontograph.Query.Pattern

/-!
# From expressions to patterns

A class expression is walked once, and what it says is added to the context of the walk.

* A class is a label of the current node or, in inference mode, a binding of it.
* An intersection puts all its classes, at whatever depth of nested intersections they stand, on the
  current node, and then its other operands.
* `∃p.C` is an edge to a new node, for which `C` is walked in a scope of its own.
* `∃p.{a}` is an edge to a new node that is the individual `a`.
* A restriction on data is a condition on the current node.

Nothing else has a pattern.  The current node is that of the innermost open scope.  Nodes are named `n0`,
`n1` and so on, and sets of members after their node; a name that is taken, by the caller for the node to
return or by the walk, is not given out.  The context counts nodes and scopes as it goes.
-/

namespace Ontograph

/-- What a walk has at hand: the name of the node to return, the number that the next new node may have, all
names that are taken, the nodes of the open scopes, innermost first, and what was added and counted so
far. -/
structure Context where
  target : String
  next : Nat
  used : List String
  scopes : List String
  bindings : List Binding
  parts : List Part
  conditions : List Condition
  nodes : List String
  tally : Tally

namespace Context

/-! ## Names -/

/-- The name of the node with a number. -/
def nodeName (n : Nat) : String :=
  "n" ++ n.repr

/-- The name of the set of members of the class with an index among those of a node, with underscores after
it. -/
def setName (node : String) (index underscores : Nat) : String :=
  node ++ "_set" ++ index.repr ++ String.ofList (List.replicate underscores '_')

/-- The first of some names, by its number, that is not taken.  Of names that are all different, one more
than are taken, there is one. -/
def firstFree (used : List String) (names : Nat → String) : Nat :=
  ((List.range (used.length + 1)).find? fun k => names k ∉ used).getD 0

/-- Takes a name for a node. -/
def claim (name : String) (c : Context) : Context :=
  { c with
    used := name :: c.used
    nodes := c.nodes ++ [name]
    tally := { c.tally with nodes := c.tally.nodes + 1 } }

/-- A new node, named by the first number from the next one on whose name is not taken. -/
def fresh (c : Context) : String × Context :=
  let n := c.next + firstFree c.used fun k => nodeName (c.next + k)
  (nodeName n, claim (nodeName n) { c with next := n + 1 })

/-- A new name for a set; underscores follow as long as the name is taken. -/
def freshSet (node : String) (index : Nat) (c : Context) : String × Context :=
  let name := setName node index (firstFree c.used (setName node index))
  (name, { c with used := name :: c.used })

/-- New names for the sets of members of classes on a node, which are counted from an index on. -/
def freshSets (node : String) : Nat → List Uri → Context → List MemberSet × Context
  | _, [], c => ([], c)
  | index, cls :: rest, c =>
      let (name, c) := c.freshSet node index
      let (sets, c) := freshSets node (index + 1) rest c
      (⟨cls, name⟩ :: sets, c)

/-! ## Scopes -/

/-- Opens the scope of a node. -/
def enter (node : String) (c : Context) : Context :=
  { c with
    scopes := node :: c.scopes
    tally := { c.tally with
      opened := c.tally.opened + 1
      depth := max c.tally.depth (c.scopes.length + 1) } }

/-- Closes the innermost scope, if one is open. -/
def leave (c : Context) : Context :=
  match c.scopes with
  | [] => c
  | _ :: outer =>
      { c with scopes := outer, tally := { c.tally with closed := c.tally.closed + 1 } }

/-- The node of the innermost open scope. -/
def current (c : Context) : String :=
  c.scopes.head?.getD c.target

/-! ## Additions -/

/-- Adds a part. -/
def addPart (part : Part) (c : Context) : Context :=
  { c with parts := c.parts ++ [part] }

/-- Adds a condition. -/
def addCondition (condition : Condition) (c : Context) : Context :=
  { c with conditions := c.conditions ++ [condition] }

/-- Adds a binding. -/
def addBinding (binding : Binding) (c : Context) : Context :=
  { c with bindings := c.bindings ++ [binding] }

/-- Adds the condition that nothing meets, unless it is there. -/
def refute (c : Context) : Context :=
  if .unsatisfiable ∈ c.conditions then c else c.addCondition .unsatisfiable

/-- Adds an edge from the current node to a new one, and opens the scope of the new one. -/
def enterEdge (property : Uri) (c : Context) : Context :=
  let (node, d) := c.fresh
  (d.addPart (.edge c.current property node)).enter node

/-- Adds an edge from the current node to a new one for an individual. -/
def addValueEdge (property individual : Uri) (c : Context) : Context :=
  let (node, d) := c.fresh
  d.addPart (.valueEdge c.current property node individual)

/-- Puts classes on the current node. -/
def addClasses (mode : Mode) (classes : List Uri) (c : Context) : Context :=
  match mode, classes with
  | _, [] => c
  | .direct, classes => c.addPart (.node c.current classes)
  | .inference, [cls] => c.addBinding (.members cls c.current)
  | .inference, classes =>
      let (sets, d) := freshSets c.current 0 classes c
      d.addBinding (.common sets c.current)

/-! ## Start and end -/

/-- The context in which nothing was done yet. -/
def empty : Context :=
  { target := "", next := 0, used := [], scopes := [], bindings := [], parts := [], conditions := [],
    nodes := [], tally := ⟨0, 0, 0, 0⟩ }

/-- The context with nothing but the node to return, which has a new name if the caller chose none. -/
def start : Option String → Context
  | some name => { claim name empty with target := name }
  | none =>
      let (name, c) := empty.fresh
      { c with target := name }

/-- The finished pattern; one without parts matches the node to return. -/
def finish (c : Context) : Pattern :=
  { bindings := c.bindings
    parts := if c.parts.isEmpty then [.node c.target []] else c.parts
    conditions := c.conditions
    target := c.target
    nodes := c.nodes
    tally := c.tally }

end Context

/-- A part of a walk.  It changes the context, also if it fails. -/
abbrev Lowering := EStateM Failure Context Unit

namespace Lowering

/-- Goes on if there is nothing to object to. -/
def check {α : Type} : Except Failure α → Lowering
  | .ok _ => pure ()
  | .error failure => throw failure

/-- Closes the innermost scope after a part of a walk, whether it fails or not. -/
def andLeave (walk : Lowering) : Lowering := fun c =>
  match walk c with
  | .ok done c => .ok done c.leave
  | .error failure c => .error failure c.leave

end Lowering

namespace ClassExpression

/-! ## The operands of an intersection -/

mutual

/-- The classes among an expression and the operands of the intersections in it. -/
def conjoinedClasses : ClassExpression → List Uri
  | named uri => [uri]
  | intersection operands => conjoinedClassesList operands
  | _ => []

/-- The classes among operands and the operands of the intersections in them. -/
def conjoinedClassesList : List ClassExpression → List Uri
  | [] => []
  | operand :: rest => operand.conjoinedClasses ++ conjoinedClassesList rest

end

mutual

/-- Whether the bottom class is an expression or among the operands of the intersections in it. -/
def conjoinsNothing : ClassExpression → Bool
  | nothing => true
  | intersection operands => conjoinsNothingList operands
  | _ => false

/-- Whether the bottom class is among operands and the operands of the intersections in them. -/
def conjoinsNothingList : List ClassExpression → Bool
  | [] => false
  | operand :: rest => operand.conjoinsNothing || conjoinsNothingList rest

end

/-! ## The walk -/

/-- Puts classes on the current node, all of which must have a name in queries. -/
def visitClasses (mode : Mode) (classes : List Uri) : Lowering := do
  Lowering.check (classes.mapM Query.uriName)
  modify (Context.addClasses mode classes)

mutual

/-- Adds what an expression says about the current node. -/
def visit (mode : Mode) : ClassExpression → Lowering
  | thing => pure ()
  | nothing => modify (Context.addCondition .unsatisfiable)
  | named uri => visitClasses mode [uri]
  | intersection operands => do
      if conjoinsNothingList operands then modify Context.refute
      visitClasses mode (conjoinedClassesList operands)
      visitOperands mode operands
  | objectSome property filler => do
      Lowering.check (Query.uriName property)
      modify (Context.enterEdge property)
      (filler.visit mode).andLeave
  | objectHas property individual => do
      Lowering.check (Query.uriName property)
      modify (Context.addValueEdge property individual)
  | dataSome property => do
      Lowering.check (Query.uriName property)
      modify fun c => c.addCondition (.hasAttribute c.current property)
  | dataHas property value => do
      Lowering.check (Query.uriName property)
      Lowering.check (Query.literal value)
      modify fun c => c.addCondition (.attributeEquals c.current property value)
  | union operands => throw (.unsupported (.disjunction (union operands)))
  | complement operand => throw (.unsupported (.negation (complement operand)))
  | objectAll property filler => throw (.unsupported (.universal (objectAll property filler)))
  | dataAll property range => throw (.unsupported (.universal (dataAll property range)))
  | objectCardinality restriction count property filler =>
      throw (.unsupported (.cardinality (objectCardinality restriction count property filler)))

/-- Adds what the operands of an intersection say about the current node, apart from its classes and the
bottom class. -/
def visitOperands (mode : Mode) : List ClassExpression → Lowering
  | [] => pure ()
  | thing :: rest => visitOperands mode rest
  | nothing :: rest => visitOperands mode rest
  | named _ :: rest => visitOperands mode rest
  | intersection operands :: rest => do
      visitOperands mode operands
      visitOperands mode rest
  | operand :: rest => do
      operand.visit mode
      visitOperands mode rest

end

/-- The pattern of an expression, whose node to return has the given name or is named `n0`.  The
normal form counts; the top and the bottom class alone have no pattern. -/
def toPattern (mode : Mode) (target : Option String) (e : ClassExpression) :
    Except Failure Pattern := do
  let e := e.normalized
  if e.isThing || e.isNothing then
    throw (.unsupported (.bare e))
  match target with
  | some name => if !Query.isVariable name then throw (.invalidIdentifier name)
  | none => pure ()
  let c := Context.start target
  match e.visit mode (c.enter c.target) with
  | .ok _ c => return c.leave.finish
  | .error failure _ => throw failure

end ClassExpression

end Ontograph
