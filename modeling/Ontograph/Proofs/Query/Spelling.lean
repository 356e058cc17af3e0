import Ontograph.Proofs.Query.Fragment
import Ontograph.Proofs.Query.Simulation

/-!
# Names in patterns can be written

All names of variables in the pattern of an expression, the target's, the numbered nodes' and the sets',
consist of letters, digits and underscores, and its other names and literals have texts.

Main statement: `Pattern.spelled_of_toPattern`.
-/

namespace Ontograph

/-! ## Identifiers -/

namespace Query

/-- A name without characters that could end it. -/
def Identifier (name : String) : Prop :=
  ∀ c ∈ name.toList, isIdentifierRest c = true

theorem VariableForm.identifier {name : String} (h : VariableForm name) : Identifier name := by
  obtain ⟨first, rest, chars, start, more⟩ := h
  intro c hc
  rw [chars] at hc
  rw [isIdentifierRest_iff]
  rcases List.mem_cons.1 hc with rfl | hc
  · exact .inl start
  · exact more c hc

theorem identifier_ofList {chars : List Char} (h : chars.all isIdentifierRest = true) :
    Identifier (String.ofList chars) := by
  intro c hc
  rw [String.toList_ofList] at hc
  exact List.all_eq_true.1 h c hc

theorem Identifier.append {a b : String} (ha : Identifier a) (hb : Identifier b) :
    Identifier (a ++ b) := by
  intro c hc
  rw [String.toList_append] at hc
  exact (List.mem_append.1 hc).elim (ha c) (hb c)

theorem identifier_repr (n : Nat) : Identifier n.repr := by
  intro c hc
  rw [Nat.toList_repr] at hc
  have digit := Nat.isDigit_of_mem_toDigits (by decide) (by decide) hc
  simp [isIdentifierRest, Char.isAlphanum, digit]

end Query

open Query
open Context (nodeName)

namespace Draft

theorem identifier_nodeName (n : Nat) : Identifier (nodeName n) := by
  have letter : Identifier (String.ofList ['n']) := identifier_ofList rfl
  exact letter.append (identifier_repr n)

theorem identifier_setName {node : String} (h : Identifier node) (target : String) (i : Nat) :
    Identifier (setName target node i) := by
  have mark : Identifier (String.ofList ['_', 's', 'e', 't']) := identifier_ofList rfl
  have underscore : Identifier (String.ofList ['_']) := identifier_ofList rfl
  have name := (h.append mark).append (identifier_repr i)
  unfold setName
  simp only
  split
  · exact name.append underscore
  · exact name

end Draft

/-! ## Patterns in identifiers -/

/-- The names in a binding are identifiers, and there are sets to intersect. -/
def Binding.Spelled : Binding → Prop
  | members _ var => Identifier var
  | common sets var => sets ≠ [] ∧ (∀ set ∈ sets, Identifier set.var) ∧ Identifier var

/-- The variables of a part are identifiers, and its names can be quoted. -/
def Part.Spelled (part : Part) : Prop :=
  (∀ var ∈ part.vars, Identifier var) ∧ part.Printable

/-- The variable of a condition is an identifier, and it has a text. -/
def Condition.Spelled (condition : Condition) : Prop :=
  (∀ var ∈ condition.vars, Identifier var) ∧ condition.Printable

/-- All that a pattern names has a text of its own. -/
structure Pattern.Spelled (q : Pattern) : Prop where
  bindings : ∀ binding ∈ q.bindings, binding.Spelled
  parts : ∀ part ∈ q.parts, part.Spelled
  conditions : ∀ condition ∈ q.conditions, condition.Spelled
  nonempty : q.parts ≠ []

namespace Pattern

theorem identifier_of_toPattern {mode : Mode} {target : Option String} {e : ClassExpression}
    {q : Pattern} (h : e.toPattern mode target = .ok q) : ∀ v ∈ q.nodes, Identifier v := by
  have accepted : e.patternFault? target = none :=
    (ClassExpression.toPattern_meets mode target e).ok_iff.1 ⟨q, h⟩
  have form := (ClassExpression.patternFault?_eq_none.1 accepted).2.1
  have chosen : Identifier (target.getD "n0") := by
    cases target with
    | none => exact Draft.identifier_nodeName 0
    | some name => exact (form name rfl).identifier
  obtain ⟨d₁, d₂, classes, w, rfl⟩ := ClassExpression.walk_of_toPattern h
  have unbound := Draft.Sound.unbound_start (target.getD "n0") 1
  have grown := Draft.Grows.addClassesOf classes
  have sound := (Draft.Sound.start (target.getD "n0") 1).addClassesOf unbound classes
  have walked : d₂.Sound := Draft.Sound.walk w sound (grown.nodes unbound.1)
  have kept : d₂.target = target.getD "n0" := (Draft.Grows.walk w).target.trans grown.target
  intro v hv
  rcases walked.isNode hv with rfl | ⟨n, rfl⟩
  · exact kept ▸ chosen
  · exact Draft.identifier_nodeName n

/-- The pattern of an expression can be written. -/
theorem spelled_of_toPattern {mode : Mode} {target : Option String} {e : ClassExpression}
    {q : Pattern} (h : e.toPattern mode target = .ok q) : q.Spelled := by
  have names := identifier_of_toPattern h
  have hygienic := hygienic_of_toPattern h
  obtain ⟨parts, conditions⟩ := printable_of_toPattern h
  constructor
  case bindings =>
    intro b hb
    obtain ⟨node, numbered⟩ := hygienic.bindings b hb
    cases b with
    | members cls var => exact names var node
    | common sets var =>
        obtain ⟨classes, some, rfl⟩ := numbered
        refine ⟨?_, ?_, names var node⟩
        · rw [Ne, List.mapIdx_eq_nil_iff]
          exact some
        · intro set hs
          obtain ⟨i, _, rfl⟩ := List.mem_mapIdx.1 hs
          exact Draft.identifier_setName (names var node) _ i
  case parts =>
    intro part hp
    exact ⟨fun v hv => names v ((hygienic.nodes v).2 ⟨part, hp, hv⟩), parts part hp⟩
  case conditions =>
    intro condition hc
    exact ⟨fun v hv => names v (hygienic.conditions condition hc v hv), conditions condition hc⟩
  case nonempty =>
    intro none
    obtain ⟨part, hp, -⟩ := (hygienic.nodes q.target).1 hygienic.target
    rw [none] at hp
    cases hp

end Pattern

end Ontograph
