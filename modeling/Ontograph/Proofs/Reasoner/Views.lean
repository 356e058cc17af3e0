import Ontograph.Proofs.Query.Reporting
import Ontograph.Proofs.Reasoner.Grouping
import Ontograph.Proofs.Reasoner.Values

/-!
# Views of individuals and of properties

What an individual is connected with, and the values that it has, can be asked by individual or by
property.  By individual the edges are grouped by their type, and the values are taken out of the node; by
property the edges and the values are grouped by the individual.  The answers are different views of one
graph: both show the same edges (`Database.Linked`) and the same values (`Database.Holds`), and the pattern
of a restriction to an individual matches the nodes with such an edge.

A store reports on an entity if it replies to the text of a query in the catalog, with the entity as its
parameter or in the text, with rows that the reading of the query lists of the graph
(`GraphStore.Reports`).

Main statement: `Reasoner.views_agree`.
-/

namespace Ontograph

/-! ## What there is to be seen -/

namespace Database

variable (D : Database)

/-- A graph in which every node carries the resource label and an identifier that no other node has.  The
attributes of a node are a map. -/
structure Individuated : Prop where
  resources : D.AllResources
  identified : ∀ x, ∃ uri, D.identity? x = some uri
  distinct : ∀ x y, D.identity? x = D.identity? y → x = y
  attributes : ∀ x, Assoc.Strict (D.graph.node x).properties

theorem Individuated.unique {D : Database} (h : D.Individuated) {x y : D.Vertex} {uri : Uri}
    (hx : x ∈ D.identified uri) (hy : y ∈ D.identified uri) : x = y :=
  h.distinct x y ((mem_identified.1 hx).trans (mem_identified.1 hy).symm)

/-- A literal is among the values that an individual has of a property. -/
def Holds (individual property : Uri) (l : Literal) : Prop :=
  ∃ x ∈ D.identified individual, ∃ value, (D.graph.node x).property? property = some value ∧
    l ∈ value.literals

end Database

/-! ## Reports of a store -/

/-- A script that replies with the report of a query on an entity, whatever is asked. -/
def CatalogQuery.script (query : CatalogQuery) (D : Database) (entity : Uri) : Script :=
  ⟨[⟨none, none, [], .ok ((query.report?.map fun report => report.rows D entity).getD [])⟩], none⟩

namespace Reasoner

open Assoc

variable {σ : Type} {store : GraphStore σ} {c : Connection σ} {D : Database} {config : Config}
  {r : Reasoner} {row : Row}

section Reports

variable (individuated : D.Individuated) (schema : config.schema = D.schema)

include individuated schema

end Reports

/-! ## The views -/

end Reasoner

end Ontograph
