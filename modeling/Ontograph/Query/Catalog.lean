import Ontograph.Ascending
import Ontograph.Query.Name
import Ontograph.Query.Template
import Ontograph.Schema

/-!
# The query catalog

The texts of the catalog queries for one schema.  The names of the schema are put in when the catalog
is made; the property of a query about its members is put in when the query is asked.
-/

namespace Ontograph

/-- The query texts for one schema, in the order of the queries. -/
structure Catalog where
  texts : List (CatalogQuery × String)

namespace Catalog

open Query

/-- What the tokens of templates stand for: names of the schema and datatypes as text literals. -/
def tokens (schema : Schema) : List (String × String) :=
  [("RESOURCE", schemaName schema.resourceLabel),
    ("CLASS", schemaName schema.classLabel),
    ("OBJECT_PROPERTY", schemaName schema.objectPropertyLabel),
    ("DATA_PROPERTY", schemaName schema.dataPropertyLabel),
    ("SCO", schemaName schema.subclassOfType),
    ("SPO", schemaName schema.subpropertyOfType),
    ("DOMAIN", schemaName schema.domainType),
    ("RANGE", schemaName schema.rangeType),
    ("URI", schemaName schema.identityKey),
    ("XSD_BOOLEAN", stringLiteral Vocabulary.xsdBoolean),
    ("XSD_STRING", stringLiteral Vocabulary.xsdString),
    ("XSD_INT", stringLiteral Vocabulary.xsdInt),
    ("XSD_INTEGER", stringLiteral Vocabulary.xsdInteger),
    ("XSD_DOUBLE", stringLiteral Vocabulary.xsdDouble),
    ("XSD_FLOAT", stringLiteral Vocabulary.xsdFloat)]

/-- The catalog of some templates; of two templates for one query the later counts. -/
def ofTemplates (schema : Schema) (templates : List (CatalogQuery × String)) : Catalog :=
  ⟨Assoc.ofList (templates.map fun (query, template) =>
    (query, Template.fill (tokens schema) template))⟩

/-- The catalog of all queries. -/
def ofSchema (schema : Schema) : Catalog :=
  ofTemplates schema (CatalogQuery.all.map fun query => (query, query.template))

/-- How many queries a catalog has. -/
def size (catalog : Catalog) : Nat :=
  catalog.texts.length

/-- The text of a query. -/
def get (catalog : Catalog) (query : CatalogQuery) : Except Failure String :=
  match Assoc.find? query catalog.texts with
  | some text => .ok text
  | none => .error (.unregistered query)

/-- The text of a query about a property. -/
def keyed (catalog : Catalog) (query : CatalogQuery) (property : Uri) : Except Failure String := do
  let text ← catalog.get query
  let name ← uriName property
  return Template.fill [("KEY", name)] text

end Catalog

end Ontograph
