import Ontograph.Ascending
import Ontograph.Json.Decode
import Ontograph.Ontology.Literal

/-!
# Values of a property graph

What a graph store holds and hands out: scalars, bytes, lists, maps and whole nodes.  A node has a
set of labels and a map of properties.  A row of a query's result is a map from columns to values, and
a statement is a query text with a map of parameters.  Sets and maps are ascending lists.
-/

namespace Ontograph

/-- A value of a property graph. -/
inductive Value where
  | null
  | boolean (b : Bool)
  | integer (n : Int64)
  | float (x : Binary64)
  | string (s : String)
  | bytes (data : List UInt8)
  | list (items : List Value)
  | map (entries : List (String × Value))
  | node (labels : List String) (properties : List (String × Value))

/-- A node: its labels and its properties. -/
structure Node where
  labels : List String
  properties : List (String × Value)

/-- A row of a result. -/
structure Row where
  columns : List (String × Value)

/-- A query text and the values of its parameters. -/
structure Statement where
  text : String
  parameters : List (String × Value)

/-! ## Values -/

namespace Value

/-- The word for the kind of a value. -/
def kindName : Value → String
  | null => "null"
  | boolean _ => "boolean"
  | integer _ => "integer"
  | float _ => "float"
  | string _ => "string"
  | bytes _ => "bytes"
  | list _ => "list"
  | map _ => "map"
  | node .. => "node"

/-- The text that a value is. -/
def text? : Value → Option String
  | string s => some s
  | _ => none

/-- The node that a value is. -/
def node? : Value → Option Node
  | node labels properties => some ⟨labels, properties⟩
  | _ => none

mutual

/-- Whether two values are equal, doubles by value: a NaN equals nothing. -/
def agrees : Value → Value → Bool
  | null, null => true
  | boolean a, boolean b => a = b
  | integer a, integer b => a = b
  | float a, float b => a.sameValue b
  | string a, string b => a = b
  | bytes a, bytes b => a = b
  | list a, list b => agreesItems a b
  | map a, map b => agreesEntries a b
  | node l a, node m b => l = m && agreesEntries a b
  | _, _ => false

/-- Whether two lists are equal. -/
def agreesItems : List Value → List Value → Bool
  | [], [] => true
  | a :: as, b :: bs => a.agrees b && agreesItems as bs
  | _, _ => false

/-- Whether two maps are equal. -/
def agreesEntries : List (String × Value) → List (String × Value) → Bool
  | [], [] => true
  | (k, a) :: as, (l, b) :: bs => k = l && a.agrees b && agreesEntries as bs
  | _, _ => false

end

mutual

/-- The JSON value of a value. -/
def toJson : Value → Json
  | null => .string "null"
  | boolean b => .tagged "boolean" (.bool b)
  | integer n => .tagged "integer" (.int n.toInt)
  | float x => .tagged "float" x.toJson
  | string s => .tagged "string" (.string s)
  | bytes data => .tagged "bytes" (.array (data.map fun b => .int b.toNat))
  | list items => .tagged "list" (.array (toJsonItems items))
  | map entries => .tagged "map" (.object (toJsonEntries entries))
  | node labels properties =>
      .tagged "node"
        (.object [("labels", .strings labels), ("properties", .object (toJsonEntries properties))])

/-- The JSON values of the elements of a list. -/
def toJsonItems : List Value → List Json
  | [] => []
  | v :: rest => v.toJson :: toJsonItems rest

/-- The members of the JSON object of a map. -/
def toJsonEntries : List (String × Value) → List (String × Json)
  | [] => []
  | (k, v) :: rest => (k, v.toJson) :: toJsonEntries rest

end

/-- The entries of an object, decoded one by one. -/
def decodeEntries? (decode? : Json → Option Value) (members : List (String × Json)) :
    Option (List (String × Value)) :=
  (members.mapM fun member => (decode? member.2).map fun v => (member.1, v)).map Assoc.ofList

/-- The value that a JSON value describes. -/
def decode? : Nat → Json → Option Value
  | _, .string "null" => some null
  | level + 1, .object [(kind, content)] =>
      match kind, content with
      | "null", .null => some null
      | "boolean", content => content.bool?.map boolean
      | "integer", content => content.int64?.map integer
      | "float", content => content.binary64?.map float
      | "string", content => content.text?.map string
      | "bytes", content =>
          (Json.list? (fun _ v => (v.nat? 8).map UInt8.ofNat) level content).map bytes
      | kind, content =>
          match level with
          | 0 => none
          | level + 1 =>
              match kind, content with
              | "list", .array items => (items.mapM (decode? level)).map list
              | "map", .object members => (decodeEntries? (decode? level) members).map map
              | "node", content =>
                  match level, content.record? ["labels", "properties"] with
                  | level + 1, some [some labels, some (.object members)] => do
                      let labels ← labels.texts? (level + 1)
                      let properties ← decodeEntries? (decode? level) members
                      some (node (Ascending.ofList labels) properties)
                  | _, _ => none
              | _, _ => none
  | _, _ => none

end Value

/-! ## Nodes -/

namespace Node

/-- The node without labels and properties. -/
def empty : Node := ⟨[], []⟩

/-- The node as a value. -/
def toValue (node : Node) : Value :=
  .node node.labels node.properties

/-- One more label. -/
def withLabel (node : Node) (label : String) : Node :=
  { node with labels := Ascending.insert label node.labels }

/-- One more property, or a new value for it. -/
def withProperty (node : Node) (key : String) (value : Value) : Node :=
  { node with properties := Assoc.put key value node.properties }

/-- The value of a property. -/
def property? (node : Node) (key : String) : Option Value :=
  Assoc.find? key node.properties

/-- Whether the node has a label. -/
def hasLabel (node : Node) (label : String) : Bool :=
  label ∈ node.labels

/-- The JSON value of a node. -/
def toJson (node : Node) : Json :=
  .object [("labels", .strings node.labels),
    ("properties", .object (Value.toJsonEntries node.properties))]

/-- The node that a JSON value describes. -/
def decode? (level : Nat) (v : Json) : Option Node :=
  match level, v.record? ["labels", "properties"] with
  | level + 2, some [some labels, some (.object members)] => do
      let labels ← labels.texts? (level + 1)
      let properties ← Value.decodeEntries? (Value.decode? level) members
      some ⟨Ascending.ofList labels, properties⟩
  | _, _ => none

end Node

/-! ## Rows -/

namespace Row

/-- The row without columns. -/
def empty : Row := ⟨[]⟩

/-- One more column, or a new value for it. -/
def withColumn (row : Row) (column : String) (value : Value) : Row :=
  ⟨Assoc.put column value row.columns⟩

/-- The value of a column. -/
def get? (row : Row) (column : String) : Option Value :=
  Assoc.find? column row.columns

/-- The names of the columns. -/
def columnNames (row : Row) : List String :=
  Assoc.keys row.columns

/-- The JSON value of a row. -/
def toJson (row : Row) : Json :=
  .object [("columns", .object (Value.toJsonEntries row.columns))]

/-- The row that a JSON value describes. -/
def decode? (level : Nat) (v : Json) : Option Row :=
  match level, v.record? ["columns"] with
  | level + 2, some [some (.object members)] =>
      (Value.decodeEntries? (Value.decode? level) members).map Row.mk
  | _, _ => none

end Row

/-! ## Statements -/

namespace Statement

/-- The statement of a text without parameters. -/
def ofText (text : String) : Statement := ⟨text, []⟩

/-- One more parameter, or a new value for it. -/
def bind (statement : Statement) (name : String) (value : Value) : Statement :=
  { statement with parameters := Assoc.put name value statement.parameters }

/-- The names of the parameters. -/
def parameterNames (statement : Statement) : List String :=
  Assoc.keys statement.parameters

/-- The JSON value of a statement. -/
def toJson (statement : Statement) : Json :=
  .object [("text", .string statement.text),
    ("parameters", .object (Value.toJsonEntries statement.parameters))]

/-- The statement that a JSON value describes. -/
def decode? (level : Nat) (v : Json) : Option Statement :=
  match level, v.record? ["text", "parameters"] with
  | level + 2, some [some text, some (.object members)] => do
      let text ← text.text?
      let parameters ← Value.decodeEntries? (Value.decode? level) members
      some ⟨text, parameters⟩
  | _, _ => none

end Statement

end Ontograph
