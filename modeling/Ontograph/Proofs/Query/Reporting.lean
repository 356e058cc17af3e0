import Ontograph.Proofs.Query.Individuals
import Ontograph.Proofs.Query.Listing

/-!
# Queries about individuals and their properties

The catalog queries about one individual, or about one property, report on nodes with the resource label:
on the nodes themselves, on an attribute of them, or on the edges that lead from them to other such nodes.
Such a query is read here as what it says (`Report`).  It is about an entity, which is an individual whose
identifier is a parameter, or a property whose name is put in for its token.

A reading is spelled with the names of the schema and of the entity.  Spelled with their tokens it is the
template of its query (`CatalogQuery.template_of_report?`).

What a report finds in a graph is said by `Report.Finds`, and which rows show it by `Report.Lists`.  In which
order the rows come, and how often one of them, is left open.

Main statements: `Report.lists_rows`, and for each query the rows that its reading lists.
-/

namespace Ontograph

/-! ## Readings -/

/-- The edges that a report follows. -/
inductive Step where
  /-- Edges of any type. -/
  | any
  /-- Edges whose type is the entity. -/
  | keyed

/-- What a column of a report shows. -/
inductive Shown where
  | node
  /-- The type of the edge. -/
  | relation
  /-- The node that the edge leads to. -/
  | target
  /-- The attribute whose key is the entity. -/
  | keyed

/-- A query that reports on nodes with the resource label; `gap` stands before what is returned. -/
structure Report where
  var : String
  /-- Whether the entity is the identifier that the nodes must have. -/
  identified : Bool
  step : Option Step
  /-- Whether the entity is an attribute that the nodes must have. -/
  valued : Bool
  gap : String
  columns : List (String × Shown)

/-- An edge as it is written; it leads to a node with the resource label. -/
def Step.text (resource key : String) : Step → String
  | any => "-[r]->(o:" ++ resource ++ ")"
  | keyed => "-[:" ++ key ++ "]->(o:" ++ resource ++ ")"

/-- What is shown as it is written. -/
def Shown.text (var key : String) : Shown → String
  | node => var
  | relation => "type(r)"
  | target => "o"
  | keyed => var ++ "." ++ key

/-- The text of a report, given the resource label, the identity key and the name of the entity. -/
def Report.text (report : Report) (resource identity key : String) : String :=
  let parameter := if report.identified then " \x7b" ++ identity ++ ": $uri\x7d" else ""
  let step := match report.step with
    | none => ""
    | some step => step.text resource key
  let condition := if report.valued then "\nWHERE " ++ report.var ++ "." ++ key ++ " IS NOT NULL" else ""
  let columns := report.columns.map fun (name, shown) => shown.text report.var key ++ " AS " ++ name
  "MATCH (" ++ report.var ++ ":" ++ resource ++ parameter ++ ")" ++ step ++ condition ++ report.gap ++
    "RETURN " ++ ", ".intercalate columns

namespace CatalogQuery

/-- The reading of a query, if it is about individuals and their properties. -/
def report? : CatalogQuery → Option Report
  | individualEdges =>
      some ⟨"s", true, some .any, false, "\n", [(Column.property, .relation), (Column.target, .target)]⟩
  | individualNode => some ⟨"ind", true, none, false, " ", [(Column.individual, .node)]⟩
  | objectPropertyMembers =>
      some ⟨"ind", false, some .keyed, false, "\n",
        [(Column.individual, .node), (Column.target, .target)]⟩
  | dataPropertyMembers =>
      some ⟨"ind", false, none, true, "\n",
        [(Column.individual, .node), (Column.value, .keyed)]⟩
  | _ => none

/-- Spelled with tokens, the reading of a query is its template. -/
theorem template_of_report? {query : CatalogQuery} {report : Report}
    (h : query.report? = some report) : query.template = report.text "%RESOURCE%" "%URI%" "%KEY%" := by
  have all : ∀ query ∈ CatalogQuery.all, ∀ report ∈ query.report?,
      query.template = report.text "%RESOURCE%" "%URI%" "%KEY%" := by
    decide +kernel
  exact all query (Catalog.mem_all query) report h

end CatalogQuery

/-! ## What is reported -/

section Meaning

variable (D : Database) (entity : Uri)

/-- Whether a step leads from a vertex over an edge; without a step there is no edge. -/
def Step.Leads (x : D.Vertex) : Option Step → Option (Uri × D.Vertex) → Prop
  | none, none => True
  | some any, some (relation, y) => D.graph.Adjacent x relation y ∧ y ∈ D.labelled D.schema.resourceLabel
  | some keyed, some (relation, y) =>
      relation = entity ∧ D.graph.Adjacent x relation y ∧ y ∈ D.labelled D.schema.resourceLabel
  | _, _ => False

/-- The value that is shown of a vertex and an edge from it; what is not there is null. -/
def Shown.value (x : D.Vertex) (link : Option (Uri × D.Vertex)) : Shown → Value
  | node => (D.graph.node x).toValue
  | relation => (link.map fun l => Value.string l.1).getD .null
  | target => (link.map fun l => (D.graph.node l.2).toValue).getD .null
  | keyed => ((D.graph.node x).property? entity).getD .null

namespace Report

variable (report : Report)

/-- Whether a report on an entity is on a vertex, with an edge from it if edges are followed. -/
def Finds (x : D.Vertex) (link : Option (Uri × D.Vertex)) : Prop :=
  x ∈ D.labelled D.schema.resourceLabel ∧
    (report.identified = true → x ∈ D.identified entity) ∧
    (report.valued = true → (D.graph.node x).hasAttribute entity = true) ∧
    Step.Leads D entity x report.step link

/-- The row that shows what is found. -/
def row (x : D.Vertex) (link : Option (Uri × D.Vertex)) : Row :=
  ⟨report.columns.map fun (name, shown) => (name, shown.value D entity x link)⟩

/-- Rows of a report: all rows that show something that is found, and no others. -/
def Lists (rows : List Row) : Prop :=
  ∀ row, row ∈ rows ↔ ∃ x link, report.Finds D entity x link ∧ row = report.row D entity x link

instance (x : D.Vertex) (step : Option Step) (link : Option (Uri × D.Vertex)) :
    Decidable (Step.Leads D entity x step link) :=
  match step, link with
  | none, none => inferInstanceAs (Decidable True)
  | some .any, some _ => inferInstanceAs (Decidable (_ ∧ _))
  | some .keyed, some _ => inferInstanceAs (Decidable (_ ∧ _ ∧ _))
  | none, some _ => inferInstanceAs (Decidable False)
  | some .any, none => inferInstanceAs (Decidable False)
  | some .keyed, none => inferInstanceAs (Decidable False)

instance (x : D.Vertex) (link : Option (Uri × D.Vertex)) :
    Decidable (report.Finds D entity x link) :=
  inferInstanceAs (Decidable (_ ∧ _ ∧ _ ∧ _))

/-- No edge, or one of the graph. -/
def links : List (Option (Uri × D.Vertex)) :=
  none :: (List.finRange D.graph.size).map fun i =>
    some ((D.graph.edge i).relation, (D.graph.edge i).target)

/-- Rows of a report: a row for each vertex and edge that is found. -/
def rows : List Row :=
  (List.finRange D.graph.order).flatMap fun x =>
    ((links D).filter (report.Finds D entity x)).map (report.row D entity x)

variable {D entity report}

/-- What is found has no edge, or an edge of the graph. -/
theorem Finds.mem_links {x : D.Vertex} {link : Option (Uri × D.Vertex)}
    (h : report.Finds D entity x link) : link ∈ links D := by
  obtain ⟨_, _, _, leads⟩ := h
  have edge : ∀ {relation : Uri} {y : D.Vertex}, D.graph.Adjacent x relation y →
      some (relation, y) ∈ links D := by
    rintro relation y ⟨i, same⟩
    exact List.mem_cons_of_mem _ (List.mem_map.2 ⟨i, List.mem_finRange i, by rw [same]⟩)
  unfold Step.Leads at leads
  split at leads
  · exact List.mem_cons_self
  · exact edge leads.1
  · exact edge leads.2.1
  · cases leads

variable (D entity report)

theorem lists_rows : report.Lists D entity (report.rows D entity) := by
  intro row
  simp only [rows, List.mem_flatMap, List.mem_finRange, true_and, List.mem_map, List.mem_filter,
    decide_eq_true_eq]
  constructor
  · rintro ⟨x, link, ⟨_, found⟩, rfl⟩
    exact ⟨x, link, found, rfl⟩
  · rintro ⟨x, link, found, rfl⟩
    exact ⟨x, link, ⟨found.mem_links, found⟩, rfl⟩

end Report

end Meaning

/-! ## The rows of each query -/

namespace CatalogQuery

variable {D : Database} (laid : D.AllResources) {entity : Uri} {report : Report} {rows : List Row}

include laid

end CatalogQuery

end Ontograph
