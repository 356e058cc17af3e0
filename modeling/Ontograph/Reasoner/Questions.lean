import Ontograph.Ontology.DataRange
import Ontograph.Query.Catalog
import Ontograph.Query.Compiler
import Ontograph.Reasoner.Decoding
import Ontograph.Reasoner.Plan

/-!
# The reasoner

Structural questions to an ontology in a property graph.  Each question has a plan: some are settled at
once, some are catalog queries, and the individuals of an expression are found by the query that the
expression compiles to.

Questions about the class hierarchy take named classes only.  A property without a domain or range has
the top class, or the datatype of all literals, as such.
-/

namespace Ontograph

/-- What a reasoner needs to know: a compiler, which has the schema, and a catalog. -/
structure Reasoner where
  compiler : Compiler
  catalog : Catalog

/-- The questions to a reasoner. -/
inductive Question where
  | classes
  | objectProperties
  | dataProperties
  | dataPropertiesWithRange (filter : RangeFilter)
  | subClasses (expression : ClassExpression)
  | superClasses (expression : ClassExpression)
  | isSuperClassOf (upper lower : ClassExpression)
  | subObjectProperties (property : Uri)
  | superObjectProperties (property : Uri)
  | subDataProperties (property : Uri)
  | superDataProperties (property : Uri)
  | objectPropertyDomain (property : Uri)
  | objectPropertyRange (property : Uri)
  | dataPropertyDomain (property : Uri)
  | dataPropertyRange (property : Uri)
  | individuals (expression : ClassExpression)
  | hasType (expression : ClassExpression) (individual : Uri)
  | objectPropertyRelationships (individual : Uri)
  | dataPropertyRelationships (individual : Uri)
  | objectPropertyMembers (property : Uri)
  | dataPropertyMembers (property : Uri)

/-- The answers of a reasoner.  Sets and maps ascend. -/
inductive Answer where
  | uris (set : List Uri)
  | truth (b : Bool)
  | expression (e : ClassExpression)
  | range (r : DataRange)
  | links (map : List (Uri × List Uri))
  | values (map : List (Uri × List Literal))

namespace Reasoner

/-- The reasoner of a configuration. -/
def ofConfig (config : Config) : Reasoner :=
  ⟨config.compiler, Catalog.ofSchema config.schema⟩

/-- The schema of the graph. -/
def schema (r : Reasoner) : Schema :=
  r.compiler.schema

/-! ## Catalog queries -/

/-- The plan of a catalog query. -/
def query {α : Type} (r : Reasoner) (query : CatalogQuery) (parameters : List (String × String))
    (read : List Row → Except Failure α) : Plan α :=
  Plan.askText (r.catalog.get query) parameters read

/-- The identifiers that a catalog query lists. -/
def list (r : Reasoner) (query : CatalogQuery) : Plan (List Uri) :=
  r.query query [] fun rows => Row.uris r.schema rows Column.uri

/-- The identifiers that a catalog query about an entity lists. -/
def listFor (r : Reasoner) (query : CatalogQuery) (uri : Uri) : Plan (List Uri) :=
  r.query query [("uri", uri)] fun rows => Row.uris r.schema rows Column.uri

/-- The conjunction of the classes that a catalog query about an entity lists. -/
def conjunction (r : Reasoner) (query : CatalogQuery) (uri : Uri) : Plan ClassExpression :=
  (r.listFor query uri).map fun uris =>
    ClassExpression.intersectionOf (uris.map ClassExpression.ofUri)

/-! ## The class hierarchy -/

/-- The identifier of a named class; `operation` is what needs one. -/
def namedClass (operation : String) (e : ClassExpression) : Except Failure Uri :=
  match e.normalized.namedUri? with
  | some uri => .ok uri
  | none => .error (.unsupported (.anonymous operation e))

/-- The classes directly below a class. -/
def subClasses (r : Reasoner) (e : ClassExpression) : Plan (List Uri) :=
  match namedClass "sub_classes" e with
  | .error failure => .settled (.error failure)
  | .ok uri =>
      if uri = Vocabulary.owlNothing then .settled (.ok [])
      else if uri = Vocabulary.owlThing then r.listFor .rootClasses uri
      else r.listFor .subClasses uri

/-- The classes directly above a class. -/
def superClasses (r : Reasoner) (e : ClassExpression) : Plan (List Uri) :=
  match namedClass "super_classes" e with
  | .error failure => .settled (.error failure)
  | .ok uri =>
      if uri = Vocabulary.owlThing then .settled (.ok []) else r.listFor .superClasses uri

/-- Whether a class is directly above another, or trivially so. -/
def isSuperClassOf (r : Reasoner) (upper lower : ClassExpression) : Plan Bool :=
  match namedClass "is_super_class_of" upper, namedClass "is_super_class_of" lower with
  | .error failure, _ => .settled (.error failure)
  | _, .error failure => .settled (.error failure)
  | .ok upper, .ok lower =>
      if upper = Vocabulary.owlThing ∨ lower = Vocabulary.owlNothing ∨ upper = lower then
        .settled (.ok true)
      else
        r.query .isSubClassOf [("sub_uri", lower), ("sup_uri", upper)] fun rows =>
          .ok !rows.isEmpty

/-! ## Individuals -/

/-- The individuals of an expression.  The expression is compiled before anything is asked. -/
def individuals (r : Reasoner) (e : ClassExpression) : Plan (List Uri) :=
  let e := e.normalized
  let read := fun rows => Row.uris r.schema rows Column.individual
  if e.isNothing then .settled (.ok [])
  else if e.isThing then r.query .allIndividuals [] read
  else Plan.askText (r.compiler.text e (some Column.individual)) [] read

/-- Adds values to the set of a key; without values there is no entry. -/
def gather {α : Type} [Ord α] (map : List (Uri × List α)) (entry : Uri × List α) :
    List (Uri × List α) :=
  if entry.2.isEmpty then map
  else Assoc.adjust entry.1 [] (fun set => entry.2.foldr Ascending.insert set) map

/-- Groups the entries that rows give by their keys. -/
def group {α : Type} [Ord α] (entry : Row → Except Failure (Uri × List α)) (rows : List Row) :
    Except Failure (List (Uri × List α)) := do
  return (← rows.mapM entry).foldl gather []

/-- The pair of the identifiers in two columns. -/
def linkOf (r : Reasoner) (source target : String) (row : Row) :
    Except Failure (Uri × List Uri) := do
  let key ← row.uri r.schema source
  let value ← row.uri r.schema target
  return (key, [value])

/-- The individual and the literals of a row. -/
def valuesOf (r : Reasoner) (row : Row) : Except Failure (Uri × List Literal) := do
  let key ← row.uri r.schema Column.individual
  let value ← row.column Column.value
  return (key, value.literals)

/-- The edges of an individual, by their type. -/
def objectPropertyRelationships (r : Reasoner) (individual : Uri) :
    Plan (List (Uri × List Uri)) :=
  r.query .individualEdges [("uri", individual)]
    (group (r.linkOf Column.property Column.target))

/-- The literals of a node, by their key; keys with a meaning of their own do not count. -/
def nodeValues (r : Reasoner) (node : Node) : List (Uri × List Literal) :=
  (node.properties.filter fun e => !r.schema.isReservedKey e.1 && !e.2.literals.isEmpty).map
    fun e => (e.1, e.2.literals)

/-- The attribute values of an individual, by their key. -/
def dataPropertyRelationships (r : Reasoner) (individual : Uri) :
    Plan (List (Uri × List Literal)) :=
  r.query .individualNode [("uri", individual)] fun rows =>
    match rows with
    | [] => .error (.notFound individual)
    | row :: _ => do
        match ← row.column Column.individual with
        | .node labels properties => return r.nodeValues ⟨labels, properties⟩
        | value => throw (.unexpectedValue Column.individual (.notNode value.kindName))

/-- The pairs of individuals that a property connects, by the first one. -/
def objectPropertyMembers (r : Reasoner) (property : Uri) : Plan (List (Uri × List Uri)) :=
  Plan.askText (r.catalog.keyed .objectPropertyMembers property) []
    (group (r.linkOf Column.individual Column.target))

/-- The individuals with an attribute, and its values. -/
def dataPropertyMembers (r : Reasoner) (property : Uri) : Plan (List (Uri × List Literal)) :=
  Plan.askText (r.catalog.keyed .dataPropertyMembers property) [] (group r.valuesOf)

/-! ## Questions -/

/-- The plan of a question. -/
def plan (r : Reasoner) : Question → Plan Answer
  | .classes => (r.list .classes).map .uris
  | .objectProperties => (r.list .objectProperties).map .uris
  | .dataProperties => (r.list .dataProperties).map .uris
  | .dataPropertiesWithRange filter => (r.list filter.query).map .uris
  | .subClasses e => (r.subClasses e).map .uris
  | .superClasses e => (r.superClasses e).map .uris
  | .isSuperClassOf upper lower => (r.isSuperClassOf upper lower).map .truth
  | .subObjectProperties p => (r.listFor .subObjectProperties p).map .uris
  | .superObjectProperties p => (r.listFor .superObjectProperties p).map .uris
  | .subDataProperties p => (r.listFor .subDataProperties p).map .uris
  | .superDataProperties p => (r.listFor .superDataProperties p).map .uris
  | .objectPropertyDomain p => (r.conjunction .objectPropertyDomain p).map .expression
  | .objectPropertyRange p => (r.conjunction .objectPropertyRange p).map .expression
  | .dataPropertyDomain p => (r.conjunction .dataPropertyDomain p).map .expression
  | .dataPropertyRange p =>
      (r.listFor .dataPropertyRange p).map fun uris => .range (DataRange.intersectionOf uris)
  | .individuals e => (r.individuals e).map .uris
  | .hasType e individual => (r.individuals e).map fun uris => .truth (individual ∈ uris)
  | .objectPropertyRelationships i => (r.objectPropertyRelationships i).map .links
  | .dataPropertyRelationships i => (r.dataPropertyRelationships i).map .values
  | .objectPropertyMembers p => (r.objectPropertyMembers p).map .links
  | .dataPropertyMembers p => (r.dataPropertyMembers p).map .values

/-- Answers a question over a connection. -/
def answer {σ : Type} (r : Reasoner) (store : GraphStore σ) (question : Question)
    (c : Connection σ) : Except Failure Answer × Connection σ :=
  (r.plan question).run store c

end Reasoner

end Ontograph
