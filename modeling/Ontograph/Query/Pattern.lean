import Ontograph.Json.Decode
import Ontograph.Ontology.Literal

/-!
# Graph patterns

What a class expression is turned into before any query text exists: parts of a graph to match,
conditions on attributes, variables bound beforehand to the members of classes, and the variable to
return.
-/

namespace Ontograph

/-- A class and the name for the set of its members. -/
structure MemberSet where
  cls : Uri
  var : String
deriving DecidableEq

/-- A variable that is bound to members of classes before anything is matched. -/
inductive Binding where
  /-- The members of a class and of its subclasses. -/
  | members (cls : Uri) (var : String)
  /-- The common members of several classes, each of which is collected first. -/
  | common (sets : List MemberSet) (var : String)
deriving DecidableEq

/-- A part of the graph to match. -/
inductive Part where
  /-- A node with labels. -/
  | node (var : String) (labels : List Uri)
  /-- An edge. -/
  | edge (source : String) (relation : Uri) (target : String)
  /-- An edge to the node of an individual. -/
  | valueEdge (source : String) (relation : Uri) (target : String) (individual : Uri)
deriving DecidableEq

/-- A condition on what was matched. -/
inductive Condition where
  /-- A node has an attribute. -/
  | hasAttribute (var : String) (key : Uri)
  /-- An attribute of a node equals a literal. -/
  | attributeEquals (var : String) (key : Uri) (value : Literal)
  /-- No match counts. -/
  | unsatisfiable
deriving DecidableEq

/-- What building a pattern took: variables, scopes entered and left, and the most scopes that were
open at once. -/
structure Tally where
  nodes : Nat
  opened : Nat
  closed : Nat
  depth : Nat
deriving DecidableEq

/-- A graph pattern.  `nodes` lists the variables of nodes in the order of their introduction. -/
structure Pattern where
  bindings : List Binding
  parts : List Part
  conditions : List Condition
  target : String
  nodes : List String
  tally : Tally
deriving DecidableEq

namespace Binding

/-- The variable that is bound. -/
def var : Binding → String
  | members _ var => var
  | common _ var => var

end Binding

/-! ## JSON -/

namespace MemberSet

/-- The JSON value of a member set. -/
def toJson (set : MemberSet) : Json :=
  .object [("class", .string set.cls), ("set_variable", .string set.var)]

/-- The member set that a JSON value describes. -/
def decode? : Nat → Json → Option MemberSet
  | 0, _ => none
  | _ + 1, v =>
      match v.record? ["class", "set_variable"] with
      | some [some cls, some var] => do
          let cls ← cls.text?
          let var ← var.text?
          some ⟨cls, var⟩
      | _ => none

end MemberSet

namespace Binding

/-- The JSON value of a binding. -/
def toJson : Binding → Json
  | members cls var =>
      .object [("kind", .string "subsumption"), ("class", .string cls),
        ("variable", .string var)]
  | common sets var =>
      .object [("kind", .string "subsumption_intersection"),
        ("classes", .array (sets.map MemberSet.toJson)), ("variable", .string var)]

/-- The binding that a JSON value describes. -/
def decode? : Nat → Json → Option Binding
  | 0, _ => none
  | level + 1, v =>
      if v.fits (level + 1) then
        match v.kind? with
        | some ("subsumption", fields) =>
            match fields.record? ["class", "variable"] with
            | some [some cls, some var] => do
                let cls ← cls.text?
                let var ← var.text?
                some (members cls var)
            | _ => none
        | some ("subsumption_intersection", fields) =>
            match fields.record? ["classes", "variable"] with
            | some [some sets, some var] => do
                let sets ← Json.list? MemberSet.decode? level sets
                let var ← var.text?
                some (common sets var)
            | _ => none
        | _ => none
      else none

end Binding

namespace Part

/-- The JSON value of a part. -/
def toJson : Part → Json
  | node var labels =>
      .object [("kind", .string "node"), ("variable", .string var),
        ("labels", .strings labels)]
  | edge source relation target =>
      .object [("kind", .string "edge"), ("from", .string source), ("relation", .string relation),
        ("to", .string target)]
  | valueEdge source relation target individual =>
      .object [("kind", .string "value_edge"), ("from", .string source),
        ("relation", .string relation), ("to", .string target),
        ("individual", .string individual)]

/-- The part that a JSON value describes. -/
def decode? : Nat → Json → Option Part
  | 0, _ => none
  | level + 1, v =>
      if v.fits (level + 1) then
        match v.kind? with
        | some ("node", fields) =>
            match fields.record? ["variable", "labels"] with
            | some [some var, some labels] => do
                let var ← var.text?
                let labels ← labels.texts? level
                some (node var labels)
            | _ => none
        | some ("edge", fields) =>
            match fields.record? ["from", "relation", "to"] with
            | some [some source, some relation, some target] => do
                let source ← source.text?
                let relation ← relation.text?
                let target ← target.text?
                some (edge source relation target)
            | _ => none
        | some ("value_edge", fields) =>
            match fields.record? ["from", "relation", "to", "individual"] with
            | some [some source, some relation, some target, some individual] => do
                let source ← source.text?
                let relation ← relation.text?
                let target ← target.text?
                let individual ← individual.text?
                some (valueEdge source relation target individual)
            | _ => none
        | _ => none
      else none

end Part

namespace Condition

/-- The JSON value of a condition. -/
def toJson : Condition → Json
  | hasAttribute var key =>
      .object [("kind", .string "has_attribute"), ("variable", .string var),
        ("key", .string key)]
  | attributeEquals var key value =>
      .object [("kind", .string "attribute_equals"), ("variable", .string var),
        ("key", .string key), ("value", value.toJson)]
  | unsatisfiable => .object [("kind", .string "unsatisfiable")]

/-- The condition that a JSON value describes. -/
def decode? : Nat → Json → Option Condition
  | 0, _ => none
  | level + 1, v =>
      if v.fits (level + 1) then
        match v.kind? with
        | some ("has_attribute", fields) =>
            match fields.record? ["variable", "key"] with
            | some [some var, some key] => do
                let var ← var.text?
                let key ← key.text?
                some (hasAttribute var key)
            | _ => none
        | some ("attribute_equals", fields) =>
            match fields.record? ["variable", "key", "value"] with
            | some [some var, some key, some value] => do
                let var ← var.text?
                let key ← key.text?
                let value ← Literal.decode? level value
                some (attributeEquals var key value)
            | _ => none
        | some ("unsatisfiable", .object _) => some unsatisfiable
        | some ("unsatisfiable", .array []) => some unsatisfiable
        | _ => none
      else none

end Condition

namespace Tally

/-- The JSON value of a tally. -/
def toJson (tally : Tally) : Json :=
  .object [("variables_allocated", .int tally.nodes), ("scopes_opened", .int tally.opened),
    ("scopes_closed", .int tally.closed), ("max_depth", .int tally.depth)]

/-- The tally that a JSON value describes. -/
def decode? : Nat → Json → Option Tally
  | 0, _ => none
  | _ + 1, v =>
      match v.record? ["variables_allocated", "scopes_opened", "scopes_closed", "max_depth"] with
      | some [some nodes, some opened, some closed, some depth] => do
          let nodes ← nodes.nat? 64
          let opened ← opened.nat? 64
          let closed ← closed.nat? 64
          let depth ← depth.nat? 64
          some ⟨nodes, opened, closed, depth⟩
      | _ => none

end Tally

namespace Pattern

/-- The JSON value of a pattern. -/
def toJson (pattern : Pattern) : Json :=
  .object [("preamble", .array (pattern.bindings.map Binding.toJson)),
    ("parts", .array (pattern.parts.map Part.toJson)),
    ("conditions", .array (pattern.conditions.map Condition.toJson)),
    ("target", .string pattern.target), ("variables", .strings pattern.nodes),
    ("stats", pattern.tally.toJson)]

/-- The pattern that a JSON value describes. -/
def decode? : Nat → Json → Option Pattern
  | 0, _ => none
  | level + 1, v =>
      match v.record? ["preamble", "parts", "conditions", "target", "variables", "stats"] with
      | some [some bindings, some parts, some conditions, some target, some nodes,
            some tally] => do
          let bindings ← Json.list? Binding.decode? level bindings
          let parts ← Json.list? Part.decode? level parts
          let conditions ← Json.list? Condition.decode? level conditions
          let target ← target.text?
          let nodes ← nodes.texts? level
          let tally ← Tally.decode? level tally
          some ⟨bindings, parts, conditions, target, nodes, tally⟩
      | _ => none

/-- The variables that are bound beforehand. -/
def boundVariables (pattern : Pattern) : List String :=
  pattern.bindings.map Binding.var

end Pattern

end Ontograph
