import Ontograph.Failure
import Ontograph.Graph.Value
import Ontograph.Schema

/-!
# Decoding results

An identifier in a result is a text, or a node that carries it under the identity key of the schema.
Literals are read leniently: a list gives the literals among its elements, and a value that is no
literal gives none.
-/

namespace Ontograph

/-- The value of a column, which must be there. -/
def Row.column (row : Row) (name : String) : Except Failure Value :=
  match row.get? name with
  | some value => .ok value
  | none => .error (.unexpectedValue name .missing)

namespace Value

/-- The identifier that a value carries; `column` is where the value stands. -/
def uri (schema : Schema) (column : String) : Value → Except Failure Uri
  | string uri => .ok uri
  | node labels properties =>
      match ((⟨labels, properties⟩ : Node).property? schema.identityKey).bind text? with
      | some uri => .ok uri
      | none => .error (.unexpectedValue column (.noIdentity schema.identityKey))
  | value => .error (.unexpectedValue column (.notUri value.kindName))

/-- The literal that a scalar is. -/
def literal? : Value → Option Literal
  | integer n => some (.integer n)
  | float x => some (.float x)
  | string s => some (.string s)
  | boolean b => some (.boolean b)
  | _ => none

/-- The set of literals of a value: those of its elements if it is a list, else its own. -/
def literals : Value → List Literal
  | list items => Ascending.ofList (items.filterMap literal?)
  | value => value.literal?.toList

end Value

namespace Row

/-- The identifier in a column. -/
def uri (schema : Schema) (row : Row) (column : String) : Except Failure Uri := do
  (← row.column column).uri schema column

/-- The set of the identifiers in a column of some rows. -/
def uris (schema : Schema) (rows : List Row) (column : String) : Except Failure (List Uri) := do
  return Ascending.ofList (← rows.mapM fun row => row.uri schema column)

end Row

end Ontograph
