import Ontograph.Proofs.Attempts
import Ontograph.Query.Lowering

/-!
# Drafts

A draft is a pattern in the making, and what a context keeps besides is left out of it: the names that are
taken, and the nodes of the open scopes.  The node that an expression is about and the number of open scopes
are told with the expression instead (`ClassExpression.addTo`), and a new name differs from that of the node
to return and nothing else.  So a draft is added to without looking at what was done before, and what follows
about patterns is shown of drafts.  That the walk of a context comes to the same is shown apart.

Main statement: `Draft.addClasses_cases` (classes are put on a node in one of four ways).
-/

namespace Ontograph

open Context (nodeName)

/-- A pattern in the making: the name of the node to return, the number of the next new node, and what
was added so far. -/
structure Draft where
  target : String
  next : Nat
  bindings : List Binding
  parts : List Part
  conditions : List Condition
  nodes : List String
  opened : Nat
  closed : Nat
  depth : Nat

namespace Draft

/-! ## Names -/

/-- The first number from `n` on whose name is not the target's. -/
def freeNumber (target : String) (n : Nat) : Nat :=
  if nodeName n = target then n + 1 else n

/-- The name of the set of members of the class with an index among those of a node; an underscore
follows if the target has that name. -/
def setName (target node : String) (index : Nat) : String :=
  let name := node ++ "_set" ++ index.repr
  if name = target then name ++ "_" else name

/-! ## Additions -/

/-- The draft with nothing but the node to return. -/
def start (target : String) : Draft :=
  { target, next := 0, bindings := [], parts := [], conditions := [], nodes := [target],
    opened := 0, closed := 0, depth := 0 }

/-- A new node. -/
def fresh (d : Draft) : String × Draft :=
  let n := freeNumber d.target d.next
  (nodeName n, { d with next := n + 1, nodes := d.nodes ++ [nodeName n] })

/-- Enters a scope; `depth` scopes are open then. -/
def enter (d : Draft) (depth : Nat) : Draft :=
  { d with opened := d.opened + 1, depth := max d.depth depth }

/-- Leaves a scope. -/
def leave (d : Draft) : Draft :=
  { d with closed := d.closed + 1 }

/-- Adds a part. -/
def addPart (d : Draft) (part : Part) : Draft :=
  { d with parts := d.parts ++ [part] }

/-- Adds a condition. -/
def addCondition (d : Draft) (condition : Condition) : Draft :=
  { d with conditions := d.conditions ++ [condition] }

/-- Adds a binding. -/
def addBinding (d : Draft) (binding : Binding) : Draft :=
  { d with bindings := d.bindings ++ [binding] }

/-- Adds the condition that nothing meets, unless it is there. -/
def refute (d : Draft) : Draft :=
  if .unsatisfiable ∈ d.conditions then d else d.addCondition .unsatisfiable

/-- Puts classes on a node, all of which must have a name in queries. -/
def addClasses (mode : Mode) (node : String) (classes : List Uri) (d : Draft) :
    Except Failure Draft := do
  let _ ← classes.mapM Query.uriName
  match mode, classes with
  | _, [] => return d
  | .direct, classes => return d.addPart (.node node classes)
  | .inference, [cls] => return d.addBinding (.members cls node)
  | .inference, classes =>
      let sets := classes.mapIdx fun i cls => ⟨cls, setName d.target node i⟩
      return d.addBinding (.common sets node)

/-! ## What an expression says without its restrictions -/

/-- Adds that the node does not exist, if an expression says so by one of its conjuncts. -/
def addNothing (e : ClassExpression) (d : Draft) : Draft :=
  match e with
  | .nothing => d.addCondition .unsatisfiable
  | e => if e.conjoinsNothing then d.refute else d

/-- Adds all that an expression says about a node apart from its restrictions. -/
def addClassesOf (mode : Mode) (node : String) (e : ClassExpression) (d : Draft) :
    Except Failure Draft :=
  (d.addNothing e).addClasses mode node e.conjoinedClasses

/-- At most one condition is added. -/
theorem addNothing_cases (e : ClassExpression) (d : Draft) :
    d.addNothing e = d ∨ d.addNothing e = d.addCondition .unsatisfiable := by
  unfold addNothing refute
  split
  · exact .inr rfl
  · split
    · split
      · exact .inl rfl
      · exact .inr rfl
    · exact .inl rfl

@[simp] theorem addClasses_nil (mode : Mode) (node : String) (d : Draft) :
    d.addClasses mode node [] = .ok d := by
  cases mode <;> rfl

/-- Classes are put on a node in one of four ways: nothing is added for no class, a part in direct mode,
and in inference mode a binding, which is simpler for a single class. -/
theorem addClasses_cases {mode : Mode} {node : String} {classes : List Uri} {d d' : Draft}
    (added : d.addClasses mode node classes = .ok d') :
    classes = [] ∧ d' = d ∨
    mode = .direct ∧ d' = d.addPart (.node node classes) ∨
    mode = .inference ∧ (∃ cls, classes = [cls] ∧ d' = d.addBinding (.members cls node)) ∨
    mode = .inference ∧ classes ≠ [] ∧ d' = d.addBinding
      (.common (classes.mapIdx fun i cls => ⟨cls, setName d.target node i⟩) node) := by
  obtain ⟨_, _, added⟩ := bind_eq_ok.1 added
  split at added
  · cases added
    exact .inl ⟨rfl, rfl⟩
  · cases added
    exact .inr (.inl ⟨rfl, rfl⟩)
  · cases added
    exact .inr (.inr (.inl ⟨rfl, _, rfl, rfl⟩))
  · next nonempty _ =>
      cases added
      exact .inr (.inr (.inr ⟨rfl, nonempty, rfl⟩))

/-- Enters the scope of a new node, which an edge leads to. -/
def enterEdge (node : String) (property : Uri) (depth : Nat) (d : Draft) : Draft :=
  (d.fresh.2.addPart (.edge node property d.fresh.1)).enter (depth + 1)

/-- Adds an edge to a new node for an individual. -/
def addValueEdge (node : String) (property individual : Uri) (d : Draft) : Draft :=
  d.fresh.2.addPart (.valueEdge node property d.fresh.1 individual)

/-! ## The finished pattern -/

/-- The finished pattern; one without parts matches the node to return. -/
def finish (d : Draft) : Pattern :=
  { bindings := d.bindings
    parts := if d.parts.isEmpty then [.node d.target []] else d.parts
    conditions := d.conditions
    target := d.target
    nodes := d.nodes
    tally := ⟨d.nodes.length, d.opened, d.closed, d.depth⟩ }

/-- A finished pattern has the parts of the draft, or one for the node to return if it has none. -/
theorem mem_finish_parts {d : Draft} {part : Part} :
    part ∈ d.finish.parts ↔ part ∈ d.parts ∨ d.parts = [] ∧ part = .node d.target [] := by
  cases h : d.parts <;> simp [finish, h]

end Draft

namespace ClassExpression

/-! ## The walk -/

mutual

/-- Adds what an expression says about a node; `depth` scopes are open. -/
def addTo (mode : Mode) (node : String) (depth : Nat) :
    ClassExpression → Draft → Except Failure Draft
  | thing, d => .ok d
  | nothing, d => .ok (d.addCondition .unsatisfiable)
  | named uri, d => d.addClasses mode node [uri]
  | intersection operands, d => do
      let d := if conjoinsNothingList operands then d.refute else d
      let d ← d.addClasses mode node (conjoinedClassesList operands)
      addOperandsTo mode node depth operands d
  | objectSome property filler, d => do
      let _ ← Query.uriName property
      let (target, d) := d.fresh
      let d := (d.addPart (.edge node property target)).enter (depth + 1)
      let d ← filler.addTo mode target (depth + 1) d
      return d.leave
  | objectHas property individual, d => do
      let _ ← Query.uriName property
      let (target, d) := d.fresh
      return d.addPart (.valueEdge node property target individual)
  | dataSome property, d => do
      let _ ← Query.uriName property
      return d.addCondition (.hasAttribute node property)
  | dataHas property value, d => do
      let _ ← Query.uriName property
      let _ ← Query.literal value
      return d.addCondition (.attributeEquals node property value)
  | union operands, _ => .error (.unsupported (.disjunction (union operands)))
  | complement operand, _ => .error (.unsupported (.negation (complement operand)))
  | objectAll property filler, _ => .error (.unsupported (.universal (objectAll property filler)))
  | dataAll property range, _ => .error (.unsupported (.universal (dataAll property range)))
  | objectCardinality restriction count property filler, _ =>
      .error (.unsupported (.cardinality (objectCardinality restriction count property filler)))

/-- Adds what the operands of an intersection say about a node, apart from its classes and the bottom
class. -/
def addOperandsTo (mode : Mode) (node : String) (depth : Nat) :
    List ClassExpression → Draft → Except Failure Draft
  | [], d => .ok d
  | thing :: rest, d => addOperandsTo mode node depth rest d
  | nothing :: rest, d => addOperandsTo mode node depth rest d
  | named _ :: rest, d => addOperandsTo mode node depth rest d
  | intersection operands :: rest, d => do
      let d ← addOperandsTo mode node depth operands d
      addOperandsTo mode node depth rest d
  | operand :: rest, d => do
      let d ← operand.addTo mode node depth d
      addOperandsTo mode node depth rest d

end

end ClassExpression

end Ontograph
