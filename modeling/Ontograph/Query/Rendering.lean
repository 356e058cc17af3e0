import Ontograph.Query.Name
import Ontograph.Query.Pattern
import Ontograph.Schema

/-!
# Patterns as query text

A pattern is written as one line per clause: a call for each binding, one `MATCH` per part, a `WHERE`
with all conditions, and the variable to return.  Every part has a `MATCH` of its own because a query
uses no edge twice within one, which would keep two restrictions from sharing an edge.
-/

namespace Ontograph

open Query

namespace Binding

/-- A call of the procedure that lists the members of a class. -/
def call (schema : Schema) (procedure : String) (cls : Uri) (yields : String) : String :=
  "CALL " ++ procedure ++ "(" ++ stringLiteral cls
    ++ ", \x7bcatLabel: " ++ stringLiteral schema.classLabel
    ++ ", subCatRel: " ++ stringLiteral schema.subclassOfType
    ++ ", catNameProp: " ++ stringLiteral schema.identityKey
    ++ "\x7d) " ++ yields

/-- The line that collects the members of a class. -/
def collectLine (schema : Schema) (procedure : String) (set : MemberSet) : String :=
  "CALL \x7b " ++ call schema procedure set.cls "YIELD node" ++ " RETURN collect(node) AS "
    ++ set.var ++ " \x7d"

/-- The common elements of collected sets, folded from the left. -/
def commonElements : List MemberSet → String
  | [] => "[]"
  | first :: rest =>
      rest.foldl (fun text set => "apoc.coll.intersection(" ++ text ++ ", " ++ set.var ++ ")")
        first.var

/-- The lines of a binding. -/
def lines (schema : Schema) (procedure : String) : Binding → List String
  | members cls var => [call schema procedure cls ("YIELD node AS " ++ var)]
  | common sets var =>
      sets.map (collectLine schema procedure)
        ++ ["UNWIND " ++ commonElements sets ++ " AS " ++ var]

end Binding

namespace Part

/-- The pattern of a part. -/
def text (schema : Schema) : Part → Except Failure String
  | node var labels => do
      let names ← labels.mapM uriName
      return "(" ++ var ++ String.join (names.map (":" ++ ·)) ++ ")"
  | edge source relation target => do
      let name ← uriName relation
      return "(" ++ source ++ ")-[:" ++ name ++ "]->(" ++ target ++ ")"
  | valueEdge source relation target individual => do
      let name ← uriName relation
      return "(" ++ source ++ ")-[:" ++ name ++ "]->(" ++ target ++ " \x7b"
        ++ schemaName schema.identityKey ++ ": " ++ stringLiteral individual ++ "\x7d)"

end Part

namespace Condition

/-- The text of a condition. -/
def text : Condition → Except Failure String
  | hasAttribute var key => do
      let name ← uriName key
      return var ++ "." ++ name ++ " IS NOT NULL"
  | attributeEquals var key value => do
      let name ← uriName key
      let literal ← literal value
      return var ++ "." ++ name ++ " = " ++ literal
  | unsatisfiable => .ok "false"

end Condition

namespace Pattern

/-- The text of a pattern.  The procedure counts only if there are bindings. -/
def render (schema : Schema) (procedure : String) (pattern : Pattern) : Except Failure String := do
  let calls := pattern.bindings.flatMap (Binding.lines schema procedure)
  let parts ← pattern.parts.mapM (Part.text schema)
  let conditions ← pattern.conditions.mapM Condition.text
  let matches_ := parts.map ("MATCH " ++ ·)
  let filter := if conditions.isEmpty then [] else ["WHERE " ++ " AND ".intercalate conditions]
  return "\n".intercalate (calls ++ matches_ ++ filter ++ ["RETURN DISTINCT " ++ pattern.target])

end Pattern

end Ontograph
