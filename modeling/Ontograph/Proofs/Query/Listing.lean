import Ontograph.Proofs.Graph.PropertyGraph
import Ontograph.Proofs.Query.CatalogText

/-!
# Queries about the class hierarchy

The catalog queries about the class hierarchy list identifiers of nodes.  Such a query is read here as what
it says: a node with a label and a given identifier (`Spot`), an edge between two of them or none that leads
away (`Branch`), and several such branches in one list (`Listing`).

A reading is spelled with names of the schema.  Spelled with tokens it is the template of its query
(`template_of_listing?`), so spelled with the names of a schema it is the text of the query in the catalog
of this schema (`get_of_listing?`).

What a listing lists of a graph is said by `Listing.Returns`, and which rows show it by `Listing.Lists`.

Main statements: `Catalog.get_of_listing?` and `Listing.lists_rows`.
-/

namespace Ontograph

open Query Template

/-! ## Names and pieces -/

/-- The names of a schema that stand in queries about the class hierarchy and in that for all
individuals. -/
inductive SchemaName where
  | resourceLabel
  | classLabel
  | objectPropertyLabel
  | dataPropertyLabel
  | subclassOfType
  | identityKey
deriving DecidableEq

namespace SchemaName

/-- What stands for a name in templates, between percent signs. -/
def token : SchemaName → String
  | resourceLabel => "RESOURCE"
  | classLabel => "CLASS"
  | objectPropertyLabel => "OBJECT_PROPERTY"
  | dataPropertyLabel => "DATA_PROPERTY"
  | subclassOfType => "SCO"
  | identityKey => "URI"

/-- A name in a schema. -/
def value (schema : Schema) : SchemaName → String
  | resourceLabel => schema.resourceLabel
  | classLabel => schema.classLabel
  | objectPropertyLabel => schema.objectPropertyLabel
  | dataPropertyLabel => schema.dataPropertyLabel
  | subclassOfType => schema.subclassOfType
  | identityKey => schema.identityKey

/-- A name as it is written in templates. -/
def marked (name : SchemaName) : String :=
  "%" ++ name.token ++ "%"

/-- A name of a schema as it is written in queries. -/
def written (schema : Schema) (name : SchemaName) : String :=
  schemaName (name.value schema)

theorem find?_tokens (schema : Schema) (name : SchemaName) :
    (Catalog.tokens schema).find? (·.1 = name.token) = some (name.token, name.written schema) := by
  cases name <;> rfl

theorem toList_marked (name : SchemaName) : name.marked.toList = Template.token name.token.toList := by
  simp [marked, Template.token]

theorem percent_not_mem_token (name : SchemaName) : '%' ∉ name.token.toList := by
  cases name <;> decide

end SchemaName

/-- A piece of a query. -/
inductive Piece where
  | text (s : String)
  | name (name : SchemaName)

namespace Piece

/-- A piece with the names spelled in some way. -/
def spelled (spell : SchemaName → String) : Piece → String
  | text s => s
  | name n => spell n

/-- No percent sign is in the piece itself. -/
def isPlain : Piece → Bool
  | text s => '%' ∉ s.toList
  | name _ => true

/-- Pieces one after the other, with the names spelled in some way. -/
def join (spell : SchemaName → String) (pieces : List Piece) : String :=
  String.join (pieces.map (spelled spell))

theorem toList_join (spell : SchemaName → String) (pieces : List Piece) :
    (join spell pieces).toList = pieces.flatMap fun piece => (piece.spelled spell).toList := by
  induction pieces with
  | nil => rfl
  | cons piece rest ih =>
      rw [List.flatMap_cons, ← ih, ← String.toList_append]
      simp [join]

/-- Pieces are filled by spelling the names of the schema. -/
theorem fill_join (schema : Schema) {pieces : List Piece}
    (plain : ∀ piece ∈ pieces, piece.isPlain = true) :
    fill (Catalog.tokens schema) (join SchemaName.marked pieces) =
      join (SchemaName.written schema) pieces := by
  have named : Named (Catalog.tokens schema) := fun e he => (Catalog.tokens_named schema e he).1
  rw [fill_eq named, ← String.ofList_toList (s := join (SchemaName.written schema) pieces),
    toList_join, toList_join]
  congr 1
  induction pieces with
  | nil => exact replace_nil
  | cons piece rest ih =>
      obtain ⟨first, others⟩ := List.forall_mem_cons.1 plain
      rw [List.flatMap_cons, List.flatMap_cons, ← ih others]
      cases piece with
      | text s =>
          have free : '%' ∉ (spelled SchemaName.marked (text s)).toList := by
            simpa [isPlain, spelled] using first
          rw [replace_append free]
          rfl
      | name n =>
          have found := leading?_token named n.percent_not_mem_token
            (rest.flatMap fun piece => (piece.spelled SchemaName.marked).toList)
          rw [n.find?_tokens schema] at found
          have marked : (spelled SchemaName.marked (name n)).toList = token n.token.toList :=
            n.toList_marked
          rw [marked, replace_token found rfl]
          rfl

end Piece

/-- A query whose template is made of pieces has the text of these under the schema. -/
theorem Catalog.get_of_pieces (schema : Schema) {query : CatalogQuery} {pieces : List Piece}
    (h : query.template = Piece.join SchemaName.marked pieces ∧
      ∀ piece ∈ pieces, piece.isPlain = true) :
    (ofSchema schema).get query = .ok (Piece.join (SchemaName.written schema) pieces) := by
  obtain ⟨same, plain⟩ := h
  rw [get_ofSchema, same, Piece.fill_join schema plain]

/-! ## Readings -/

/-- A node of a query: the label that it must have and the parameter that its identifier must be. -/
structure Spot where
  var : String
  label : Option SchemaName
  parameter : Option String

/-- A part of a query that lists nodes. -/
inductive Branch where
  /-- Nodes from which no edge of a type leads away. -/
  | ends (spot : Spot) (relation : SchemaName)
  /-- The sources of edges of a type, or their targets. -/
  | edges (source : Spot) (relation : SchemaName) (target : Spot) (targets : Bool)

/-- A query that lists the identifiers of nodes; `gap` stands before the name of the result. -/
structure Listing where
  branches : List Branch
  gap : String
  limit : Option Nat

namespace Spot

/-- The pieces of a node. -/
def pieces (spot : Spot) : List Piece :=
  let label := match spot.label with
    | none => []
    | some label => [.text ":", .name label]
  let parameter := match spot.parameter with
    | none => []
    | some parameter => [.text " \x7b", .name .identityKey, .text (": $" ++ parameter ++ "\x7d")]
  [.text "(", .text spot.var] ++ label ++ parameter ++ [.text ")"]

end Spot

namespace Branch

/-- The variable of the nodes that are listed. -/
def var : Branch → String
  | ends spot _ => spot.var
  | edges source _ target targets => if targets then target.var else source.var

/-- The pieces of what is matched. -/
def matched : Branch → List Piece
  | ends spot relation =>
      spot.pieces ++ [.text "\nWHERE NOT (", .text spot.var, .text ")-[:", .name relation,
        .text "]->()"]
  | edges source relation target _ =>
      source.pieces ++ [.text "-[:", .name relation, .text "]->"] ++ target.pieces

/-- The pieces of a branch. -/
def pieces (gap : String) (branch : Branch) : List Piece :=
  .text "MATCH " :: (branch.matched ++
    [.text gap, .text "RETURN ", .text branch.var, .text ".", .name .identityKey,
      .text " AS uri"])

end Branch

namespace Listing

/-- The pieces of a listing. -/
def pieces (listing : Listing) : List Piece :=
  let limit := match listing.limit with
    | none => []
    | some n => [.text " LIMIT ", .text n.repr]
  [.text "\nUNION\n"].intercalate (listing.branches.map (Branch.pieces listing.gap)) ++ limit

/-- The text of a listing under a schema. -/
def text (listing : Listing) (schema : Schema) : String :=
  Piece.join (SchemaName.written schema) listing.pieces

end Listing

namespace CatalogQuery

/-- The reading of a query, if it is about the class hierarchy. -/
def listing? : CatalogQuery → Option Listing
  | subClasses =>
      some ⟨[.edges ⟨"sub", some .classLabel, none⟩ .subclassOfType ⟨"sup", none, some "uri"⟩ false],
        " ", none⟩
  | rootClasses =>
      some ⟨[.edges ⟨"sub", some .classLabel, none⟩ .subclassOfType ⟨"sup", none, some "uri"⟩ false,
        .ends ⟨"sub", some .classLabel, none⟩ .subclassOfType], "\n", none⟩
  | superClasses =>
      some ⟨[.edges ⟨"sub", some .classLabel, some "uri"⟩ .subclassOfType
        ⟨"sup", some .classLabel, none⟩ true], " ", none⟩
  | isSubClassOf =>
      some ⟨[.edges ⟨"sub", some .classLabel, some "sub_uri"⟩ .subclassOfType
        ⟨"sup", some .classLabel, some "sup_uri"⟩ false], "\n", some 1⟩
  | _ => none

variable {query : CatalogQuery} {listing : Listing}

/-- Spelled with tokens, the reading of a query is its template. -/
theorem template_of_listing? (h : query.listing? = some listing) :
    query.template = Piece.join SchemaName.marked listing.pieces ∧
      ∀ piece ∈ listing.pieces, piece.isPlain = true := by
  have all : ∀ query ∈ CatalogQuery.all, ∀ listing ∈ query.listing?,
      query.template = Piece.join SchemaName.marked listing.pieces ∧
        ∀ piece ∈ listing.pieces, piece.isPlain = true := by
    decide +kernel
  exact all query (Catalog.mem_all query) listing h

end CatalogQuery

/-- The text of a query that lists identifiers is its reading under the schema. -/
theorem Catalog.get_of_listing? (schema : Schema) {query : CatalogQuery} {listing : Listing}
    (h : query.listing? = some listing) :
    (ofSchema schema).get query = .ok (listing.text schema) :=
  get_of_pieces schema (CatalogQuery.template_of_listing? h)

/-! ## What is listed -/

namespace Database

variable (D : Database)

/-- The identifier of a vertex, if it has one. -/
def identity? (x : D.Vertex) : Option Uri :=
  ((D.graph.node x).property? D.schema.identityKey).bind Value.text?

/-- The row that shows the identifier of a vertex; what is not there is null. -/
def uriRow (x : D.Vertex) : Row :=
  ⟨[(Column.uri, ((D.graph.node x).property? D.schema.identityKey).getD .null)]⟩

variable {D}

theorem mem_identified {x : D.Vertex} {uri : Uri} :
    x ∈ D.identified uri ↔ D.identity? x = some uri := by
  simp [identified, identity?, Node.isNamed, Node.attributeIs, Option.bind_eq_some_iff,
    Option.any_eq_true]

end Database

section Meaning

variable (D : Database) (parameters : List (String × Value))

/-- Whether a vertex can be a node of a query, given the parameters of the statement. -/
def Spot.Admits (spot : Spot) (x : D.Vertex) : Prop :=
  (∀ label ∈ spot.label, x ∈ D.labelled (label.value D.schema)) ∧
    ∀ name ∈ spot.parameter, ∃ uri ∈ (Assoc.find? name parameters).bind Value.text?,
      x ∈ D.identified uri

theorem Spot.admits_label {var : String} {label : SchemaName} {x : D.Vertex} :
    Spot.Admits D parameters ⟨var, some label, none⟩ x ↔ x ∈ D.labelled (label.value D.schema) := by
  simp [Admits]

variable {parameters} in
theorem Spot.admits_parameter {var name : String} {uri : Uri} {x : D.Vertex}
    (given : Assoc.find? name parameters = some (.string uri)) :
    Spot.Admits D parameters ⟨var, none, some name⟩ x ↔ x ∈ D.identified uri := by
  simp [Admits, given, Value.text?]

variable {parameters} in
theorem Spot.admits_both {var name : String} {label : SchemaName} {uri : Uri} {x : D.Vertex}
    (given : Assoc.find? name parameters = some (.string uri)) :
    Spot.Admits D parameters ⟨var, some label, some name⟩ x ↔
      x ∈ D.labelled (label.value D.schema) ∧ x ∈ D.identified uri := by
  simp [Admits, given, Value.text?]

/-- Whether a branch lists a vertex. -/
def Branch.Returns : Branch → D.Vertex → Prop
  | ends spot relation, x =>
      spot.Admits D parameters x ∧ ∀ y, ¬ D.graph.Adjacent x (relation.value D.schema) y
  | edges source relation target targets, x =>
      ∃ s t, source.Admits D parameters s ∧ target.Admits D parameters t ∧
        D.graph.Adjacent s (relation.value D.schema) t ∧ x = if targets then t else s

namespace Listing

variable (listing : Listing)

/-- Whether a listing lists a vertex. -/
def Returns (x : D.Vertex) : Prop :=
  ∃ branch ∈ listing.branches, branch.Returns D parameters x

/-- The rows of a listing: each shows a vertex that is listed, and all vertices that are listed are
shown, or as many rows as the limit allows. -/
structure Lists (rows : List Row) : Prop where
  sound : ∀ row ∈ rows, ∃ x, listing.Returns D parameters x ∧ row = D.uriRow x
  bounded : ∀ n ∈ listing.limit, rows.length ≤ n
  complete : (∀ n ∈ listing.limit, rows.length < n) →
    ∀ x, listing.Returns D parameters x → D.uriRow x ∈ rows

instance (spot : Spot) (x : D.Vertex) : Decidable (spot.Admits D parameters x) :=
  inferInstanceAs (Decidable (_ ∧ _))

instance (branch : Branch) (x : D.Vertex) : Decidable (branch.Returns D parameters x) :=
  match branch with
  | .ends _ _ => inferInstanceAs (Decidable (_ ∧ ∀ _, _))
  | .edges _ _ _ _ => inferInstanceAs (Decidable (∃ _ _, _))

instance (x : D.Vertex) : Decidable (listing.Returns D parameters x) :=
  inferInstanceAs (Decidable (∃ _ ∈ listing.branches, _))

/-- Rows of a listing: a row for each vertex that is listed, up to the limit. -/
def rows : List Row :=
  let all := ((List.finRange D.graph.order).filter (listing.Returns D parameters)).map D.uriRow
  match listing.limit with
  | none => all
  | some n => all.take n

theorem lists_rows : listing.Lists D parameters (listing.rows D parameters) := by
  have shown : ∀ row, row ∈ ((List.finRange D.graph.order).filter
      (listing.Returns D parameters)).map D.uriRow ↔
        ∃ x, listing.Returns D parameters x ∧ D.uriRow x = row := by
    simp
  unfold rows
  split
  · next unlimited =>
      refine ⟨fun row hr => ?_, by simp [unlimited], fun _ x hx => (shown _).2 ⟨x, hx, rfl⟩⟩
      obtain ⟨x, hx, rfl⟩ := (shown row).1 hr
      exact ⟨x, hx, rfl⟩
  · next n limited =>
      refine ⟨fun row hr => ?_, ?_, fun below x hx => ?_⟩
      · obtain ⟨x, hx, rfl⟩ := (shown row).1 (List.mem_of_mem_take hr)
        exact ⟨x, hx, rfl⟩
      · simp [limited]
      · have short := below n limited
        rw [List.length_take, min_lt_iff] at short
        rw [List.take_of_length_le (by omega)]
        exact (shown _).2 ⟨x, hx, rfl⟩

end Listing

end Meaning

end Ontograph
