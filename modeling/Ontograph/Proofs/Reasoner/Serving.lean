import Ontograph.Proofs.Query.Listing
import Ontograph.Proofs.Reasoner.Sessions

/-!
# Stores that serve a graph

A store serves a query about the class hierarchy from a graph if it replies to the text of the query, in
whatever state it is, with rows that the query lists of this graph (`GraphStore.Serves`).  In which order
the rows come, and how often one of them, is left to the store.

The graph of a database is served by the store that takes a statement for the query with its text and
computes the rows (`Database.store`), as long as no two queries have the same text.

What a reasoner makes of such a reply is the set of the identifiers that are listed, if every node that is
listed has one.

Main statements: `Database.store_serves`, `Reasoner.run_served` and `Database.uris_of_lists`.
-/

namespace Ontograph

/-! ## Statements with parameters -/

namespace Statement

/-- A text with texts for its parameters. -/
def withTexts (text : String) (parameters : List (String × String)) : Statement :=
  parameters.foldl (fun statement e => statement.bind e.1 (.string e.2)) (ofText text)

theorem text_withTexts (text : String) (parameters : List (String × String)) :
    (withTexts text parameters).text = text := by
  have bound : ∀ statement : Statement,
      (parameters.foldl (fun statement e => statement.bind e.1 (.string e.2)) statement).text =
        statement.text := by
    induction parameters with
    | nil => exact fun _ => rfl
    | cons e rest ih => exact fun statement => ih (statement.bind e.1 (.string e.2))
  exact bound (ofText text)

end Statement

/-! ## Serving -/

variable {σ : Type}

/-- The store replies to a query with rows that the query lists of the graph. -/
def GraphStore.Serves (store : GraphStore σ) (D : Database) (query : CatalogQuery) : Prop :=
  ∀ state statement listing, query.listing? = some listing →
    statement.text = listing.text D.schema →
    ∃ rows, store.Replies state statement rows ∧ listing.Lists D statement.parameters rows

/-- No two queries about the class hierarchy have the same text. -/
def Schema.SeparatesListings (schema : Schema) : Prop :=
  ∀ query ∈ CatalogQuery.all, ∀ query' ∈ CatalogQuery.all, ∀ listing ∈ query.listing?,
    ∀ listing' ∈ query'.listing?, listing.text schema = listing'.text schema → query = query'

theorem Schema.separatesListings_default : ({} : Schema).SeparatesListings := by
  unfold SeparatesListings
  decide +kernel

namespace Database

variable (D : Database)

/-- The reading of the query with a text. -/
def listingOf? (text : String) : Option Listing :=
  CatalogQuery.all.findSome? fun query =>
    query.listing?.filter fun listing => listing.text D.schema = text

/-- The store that computes the rows of queries; it has none for other statements. -/
def store : GraphStore Unit where
  openSession state := (.ok (), state)
  run statement state :=
    match D.listingOf? statement.text with
    | some listing => (.ok (listing.rows D statement.parameters), state)
    | none => (.ok [], state)
  closeSession state := state

variable {D}

theorem listingOf?_text (separate : D.schema.SeparatesListings) {query : CatalogQuery}
    {listing : Listing} (reading : query.listing? = some listing) :
    D.listingOf? (listing.text D.schema) = some listing := by
  have itself : (query.listing?.filter fun l => l.text D.schema = listing.text D.schema) =
      some listing := by
    simp [reading]
  unfold listingOf?
  cases found : CatalogQuery.all.findSome? fun query =>
      query.listing?.filter fun l => l.text D.schema = listing.text D.schema with
  | none =>
      have missing := List.findSome?_eq_none_iff.1 found query (Catalog.mem_all query)
      cases missing.symm.trans itself
  | some other =>
      obtain ⟨query', _, hits⟩ := List.exists_of_findSome?_eq_some found
      obtain ⟨reading', same⟩ := Option.filter_eq_some_iff.1 hits
      obtain rfl := separate query' (Catalog.mem_all _) query (Catalog.mem_all _) other reading'
        listing reading
        (of_decide_eq_true same)
      exact reading'.symm.trans reading

/-- The computing store serves every query about the class hierarchy. -/
theorem store_serves (separate : D.schema.SeparatesListings) (query : CatalogQuery) :
    D.store.Serves D query := by
  intro state statement listing reading text
  refine ⟨listing.rows D statement.parameters, ⟨state, state, rfl, ?_⟩, listing.lists_rows D _⟩
  simp only [store, text, listingOf?_text separate reading]

end Database

/-- A query is read from rows that it lists of the graph. -/
theorem Reasoner.run_served {α : Type} {D : Database} {config : Config} (schema : config.schema = D.schema)
    {store : GraphStore σ} {query : CatalogQuery} {listing : Listing}
    (reading : query.listing? = some listing) (serves : store.Serves D query)
    (parameters : List (String × String)) (read : List Row → Except Failure α) (c : Connection σ) :
    ∃ rows, (((ofConfig config).query query parameters read).run store c).1 = read rows ∧
      listing.Lists D (Statement.withTexts (listing.text D.schema) parameters).parameters rows := by
  obtain ⟨rows, replied, lists⟩ := serves c.state
    (Statement.withTexts (listing.text D.schema) parameters) listing reading
    (Statement.text_withTexts _ _)
  refine ⟨rows, ?_, lists⟩
  rw [Reasoner.query, ofConfig, Catalog.get_of_listing? config.schema reading, schema]
  exact Plan.run_ask read replied

/-! ## Reading identifiers -/

namespace Row

variable {schema : Schema} {rows : List Row} {column : String}

/-- The identifiers in a column, if there is one in every row. -/
theorem uris_eq_ok {found : List Uri} (h : uris schema rows column = .ok found) {uri : Uri} :
    uri ∈ found ↔ ∃ row ∈ rows, row.uri schema column = .ok uri := by
  obtain ⟨all, read, h⟩ := bind_eq_ok.1 h
  cases h
  rw [Ascending.mem_ofList]
  exact mem_of_mapM_eq_ok read

theorem exists_uris_iff :
    (∃ found, uris schema rows column = .ok found) ↔
      ∀ row ∈ rows, ∃ uri, row.uri schema column = .ok uri := by
  rw [← exists_mapM_eq_ok]
  constructor
  · rintro ⟨_, h⟩
    obtain ⟨all, read, _⟩ := bind_eq_ok.1 h
    exact ⟨all, read⟩
  · rintro ⟨all, read⟩
    exact ⟨_, by rw [uris, read]; rfl⟩

end Row

namespace Database

variable {D : Database}

theorem uri_uriRow {x : D.Vertex} {uri : Uri} (h : D.identity? x = some uri) :
    (D.uriRow x).uri D.schema Column.uri = .ok uri := by
  obtain ⟨value, held, text⟩ := Option.bind_eq_some_iff.1 h
  cases value with
  | string s =>
      obtain rfl := Option.some.inj text
      simp only [uriRow, held]
      rfl
  | _ => cases text

/-- The identifiers of some vertices. -/
def Names (found : List Uri) (vertices : Set D.Vertex) : Prop :=
  ∀ uri, uri ∈ found ↔ ∃ x ∈ vertices, D.identity? x = some uri

/-- The rows of a listing without limit give the identifiers of all vertices that are listed. -/
theorem uris_of_lists {listing : Listing} {parameters : List (String × Value)} {rows : List Row}
    (unlimited : listing.limit = none) (lists : listing.Lists D parameters rows)
    {vertices : Set D.Vertex} (listed : ∀ x, listing.Returns D parameters x ↔ x ∈ vertices)
    (identified : ∀ x ∈ vertices, (D.identity? x).isSome) :
    ∃ found, Row.uris D.schema rows Column.uri = .ok found ∧ Names found vertices := by
  have shown : ∀ row ∈ rows, ∃ x ∈ vertices, row = D.uriRow x := by
    intro row hr
    obtain ⟨x, hx, same⟩ := lists.sound row hr
    exact ⟨x, (listed x).1 hx, same⟩
  have every : ∀ x ∈ vertices, D.uriRow x ∈ rows := fun x hx =>
    lists.complete (by simp [unlimited]) x ((listed x).2 hx)
  obtain ⟨found, read⟩ := Row.exists_uris_iff.2 fun row hr => by
    obtain ⟨x, hx, rfl⟩ := shown row hr
    obtain ⟨uri, hu⟩ := Option.isSome_iff_exists.1 (identified x hx)
    exact ⟨uri, uri_uriRow hu⟩
  refine ⟨found, read, fun uri => ?_⟩
  rw [Row.uris_eq_ok read]
  constructor
  · rintro ⟨row, hr, hu⟩
    obtain ⟨x, hx, rfl⟩ := shown row hr
    obtain ⟨own, ho⟩ := Option.isSome_iff_exists.1 (identified x hx)
    obtain rfl := Except.ok.inj ((uri_uriRow ho).symm.trans hu)
    exact ⟨x, hx, ho⟩
  · rintro ⟨x, hx, hu⟩
    exact ⟨_, every x hx, uri_uriRow hu⟩

end Database

end Ontograph
