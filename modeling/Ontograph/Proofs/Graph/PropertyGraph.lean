import Mathlib.Data.List.FinRange
import Ontograph.Graph.Value
import Ontograph.Schema
import Ontograph.Proofs.Ontology.Extension

/-!
# Property graphs

A finite graph of nodes with labels and properties, which edges with types connect.  Edges are told
apart by more than what they connect, so that two edges of one type may lead from one node to another.

A graph under a schema interprets class expressions (`Database.interpretation`).  What a class is stays
open: it may be read as a label, or by a procedure that lists its members.
-/

namespace Ontograph

/-- An edge of some type from one vertex to another. -/
structure Edge (V : Type) where
  source : V
  relation : Uri
  target : V
deriving DecidableEq

/-- A finite graph of nodes with labels and properties. -/
structure PropertyGraph where
  order : Nat
  node : Fin order → Node
  size : Nat
  edge : Fin size → Edge (Fin order)

namespace PropertyGraph

/-- A node of the graph, known by its number. -/
abbrev Vertex (graph : PropertyGraph) : Type := Fin graph.order

/-- Some edge of a type leads from one vertex to another. -/
def Adjacent (graph : PropertyGraph) (source : graph.Vertex) (relation : Uri)
    (target : graph.Vertex) : Prop :=
  ∃ i, graph.edge i = ⟨source, relation, target⟩

instance (graph : PropertyGraph) (source : graph.Vertex) (relation : Uri) (target : graph.Vertex) :
    Decidable (graph.Adjacent source relation target) :=
  inferInstanceAs (Decidable (∃ i, graph.edge i = _))

end PropertyGraph

namespace Node

/-- The node has a value other than null under a key. -/
def hasAttribute (node : Node) (key : Uri) : Bool :=
  match node.property? key with
  | none => false
  | some .null => false
  | some _ => true

/-- The node has a value under a key that satisfies a condition. -/
def attributeIs (node : Node) (key : Uri) (accepts : Value → Bool) : Bool :=
  (node.property? key).any accepts

/-- The node has a text under a key. -/
def isNamed (node : Node) (key text : String) : Bool :=
  node.attributeIs key fun value => value.text? = some text

end Node

/-- A graph under a schema.  When a value equals a literal, and when it is in a datatype, is left to the
database. -/
structure Database where
  graph : PropertyGraph
  schema : Schema
  equals : Value → Literal → Bool
  inDatatype : Uri → Value → Bool

namespace Database

variable (D : Database)

/-- A node of the graph. -/
abbrev Vertex : Type := D.graph.Vertex

/-- The vertices with a label. -/
def labelled (label : Uri) : Set D.Vertex :=
  {x | (D.graph.node x).hasLabel label}

/-- The vertices with a label, one after the other. -/
def listLabelled (label : Uri) : List D.Vertex :=
  (List.finRange D.graph.order).filter fun x => (D.graph.node x).hasLabel label

theorem mem_listLabelled (label : Uri) (x : D.Vertex) :
    x ∈ D.listLabelled label ↔ x ∈ D.labelled label := by
  simp [listLabelled, labelled]

/-- The vertices that keep a given identifier. -/
def identified (individual : Uri) : Set D.Vertex :=
  {x | (D.graph.node x).isNamed D.schema.identityKey individual}

instance (label : Uri) (x : D.Vertex) : Decidable (x ∈ D.labelled label) :=
  inferInstanceAs (Decidable (_ = true))

instance (individual : Uri) (x : D.Vertex) : Decidable (x ∈ D.identified individual) :=
  inferInstanceAs (Decidable (_ = true))

/-- What class expressions mean in the graph, given the members of each class. -/
def interpretation (classes : Uri → Set D.Vertex) : Interpretation D.Vertex where
  members := classes
  relates property x y := D.graph.Adjacent x property y
  named := D.identified
  hasData key := {x | (D.graph.node x).hasAttribute key}
  hasValue key literal := {x | (D.graph.node x).attributeIs key fun value => D.equals value literal}
  hasOnly key range :=
    {x | ∀ value, (D.graph.node x).property? key = some value → D.inDatatype range value}

/-- Two vertices and one edge between them; the second vertex has two labels. -/
def sharedEdge : Database where
  graph := {
    order := 2
    node := fun i => if i = 0 then ⟨[], []⟩ else ⟨["A", "B"], []⟩
    size := 1
    edge := fun _ => ⟨0, "p", 1⟩ }
  schema := {}
  equals := fun _ _ => false
  inDatatype := fun _ _ => false

/-- One vertex without edges. -/
def single (node : Node) (equals : Value → Literal → Bool) : Database where
  graph := { order := 1, node := fun _ => node, size := 0, edge := nofun }
  schema := {}
  equals := equals
  inDatatype := fun _ _ => false

/-- The vertex of a graph with only one. -/
def only {node : Node} {equals : Value → Literal → Bool} : (single node equals).Vertex :=
  (0 : Fin 1)

end Database

end Ontograph
