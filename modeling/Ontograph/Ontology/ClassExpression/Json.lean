import Ontograph.Ontology.ClassExpression

/-!
# Expressions in JSON

An expression is a string (`"thing"`, `"nothing"`) or an object with the kind of the expression as its
only key.  Decoding takes expressions as they are, without normalizing them, but the operands of
intersections and unions become sets.
-/

namespace Ontograph

namespace Restriction

/-- The name of a restriction in JSON. -/
def jsonName : Restriction → String
  | min => "min"
  | max => "max"
  | exact => "exact"

/-- The restriction with a name. -/
def ofName? (name : String) : Option Restriction :=
  [min, max, exact].find? (·.jsonName = name)

/-- The JSON value of a restriction. -/
def toJson (restriction : Restriction) : Json :=
  .string restriction.jsonName

/-- The restriction that a JSON value names. -/
def decode? (level : Nat) (v : Json) : Option Restriction :=
  (v.name? level).bind ofName?

end Restriction

namespace ClassExpression

mutual

/-- The JSON value of an expression. -/
def toJson : ClassExpression → Json
  | thing => .string "thing"
  | nothing => .string "nothing"
  | named uri => .tagged "class" (.string uri)
  | intersection operands => .tagged "intersection" (.array (toJsonList operands))
  | union operands => .tagged "union" (.array (toJsonList operands))
  | complement operand => .tagged "complement" operand.toJson
  | objectSome property filler =>
      .tagged "object_some_values_from"
        (.object [("property", .string property), ("filler", filler.toJson)])
  | objectAll property filler =>
      .tagged "object_all_values_from"
        (.object [("property", .string property), ("filler", filler.toJson)])
  | objectHas property individual =>
      .tagged "object_has_value"
        (.object [("property", .string property), ("individual", .string individual)])
  | objectCardinality restriction count property filler =>
      .tagged "object_cardinality"
        (.object [("restriction", restriction.toJson), ("cardinality", .int count.toNat),
          ("property", .string property), ("filler", filler.toJson)])
  | dataSome property => .tagged "data_some_values_from" (.object [("property", .string property)])
  | dataHas property value =>
      .tagged "data_has_value" (.object [("property", .string property), ("value", value.toJson)])
  | dataAll property range =>
      .tagged "data_all_values_from"
        (.object [("property", .string property), ("range", .string range)])

/-- The JSON values of operands. -/
def toJsonList : List ClassExpression → List Json
  | [] => []
  | operand :: rest => operand.toJson :: toJsonList rest

end

/-! ## Decoding -/

/-- The expression that a bare name stands for. -/
def ofName? : String → Option ClassExpression
  | "thing" => some thing
  | "nothing" => some nothing
  | _ => none

/-- The set of the operands in an array. -/
def operands? (decode? : Json → Option ClassExpression) : Json → Option (List ClassExpression)
  | .array items => (items.mapM decode?).map Ascending.ofList
  | _ => none

/-- The property and the filler of a restriction. -/
def filler? (decode? : Json → Option ClassExpression) (v : Json) :
    Option (Uri × ClassExpression) :=
  match v.record? ["property", "filler"] with
  | some [some property, some filler] => do
      let property ← property.text?
      let filler ← decode? filler
      some (property, filler)
  | _ => none

/-- Two texts in the fields of a record. -/
def texts? (first second : String) (v : Json) : Option (String × String) :=
  match v.record? [first, second] with
  | some [some a, some b] => do
      let a ← a.text?
      let b ← b.text?
      some (a, b)
  | _ => none

/-- A number restriction. -/
def cardinality? (level : Nat) (decode? : Json → Option ClassExpression) (v : Json) :
    Option ClassExpression :=
  match v.record? ["restriction", "cardinality", "property", "filler"] with
  | some [some restriction, some count, some property, some filler] => do
      let restriction ← Restriction.decode? level restriction
      let count ← count.nat? 32
      let property ← property.text?
      let filler ← decode? filler
      some (objectCardinality restriction (.ofNat count) property filler)
  | _ => none

/-- A restriction of a data property to a literal. -/
def dataHas? (level : Nat) (v : Json) : Option ClassExpression :=
  match v.record? ["property", "value"] with
  | some [some property, some value] => do
      let property ← property.text?
      let value ← Literal.decode? level value
      some (dataHas property value)
  | _ => none

/-- The expression of a kind whose content is a record or an array.  `decode?` is for the expressions
in it, and `level` is what is left for other parts. -/
def ofParts? (level : Nat) (decode? : Json → Option ClassExpression) (kind : String)
    (content : Json) : Option ClassExpression :=
  match kind with
  | "intersection" => (operands? decode? content).map intersection
  | "union" => (operands? decode? content).map union
  | "object_some_values_from" => (filler? decode? content).map fun e => objectSome e.1 e.2
  | "object_all_values_from" => (filler? decode? content).map fun e => objectAll e.1 e.2
  | "object_has_value" =>
      (texts? "property" "individual" content).map fun e => objectHas e.1 e.2
  | "object_cardinality" => cardinality? level decode? content
  | "data_some_values_from" =>
      match content.record? ["property"] with
      | some [some property] => property.text?.map dataSome
      | _ => none
  | "data_has_value" => dataHas? level content
  | "data_all_values_from" => (texts? "property" "range" content).map fun e => dataAll e.1 e.2
  | _ => none

/-- The expression that a JSON value describes.  The content of a kind is one level down, and the
fields or elements of that content are two. -/
def decode? : Nat → Json → Option ClassExpression
  | _, .string name => ofName? name
  | level + 1, .object [(kind, content)] =>
      match kind, content with
      | name, .null => ofName? name
      | "class", content => content.text?.map named
      | "complement", content => (decode? level content).map complement
      | kind, content =>
          match level with
          | 0 => none
          | level + 1 => ofParts? level (decode? level) kind content
  | _, _ => none

end ClassExpression

end Ontograph
