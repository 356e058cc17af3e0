import Ontograph.Json.Decode
import Ontograph.Text.Quoted

/-!
# Catalog queries

The fixed questions to a graph, each with a name and a template.  A template has tokens for the names
of the schema, `%KEY%` for a property that is put in when the question is asked, and parameters such
as `$uri`, which travel with the statement.

Questions about the ontology itself answer with identifiers in the column `uri`; questions about
individuals answer with nodes.
-/

namespace Ontograph

/-! ## Columns -/

namespace Column

/-- Identifiers. -/
def uri : String := "uri"

/-- Nodes of individuals. -/
def individual : String := "individual"

/-- Types of edges. -/
def property : String := "property"

/-- Nodes at the end of edges. -/
def target : String := "target"

/-- Values of attributes. -/
def value : String := "value"

end Column

/-! ## Queries -/

/-- A fixed question. -/
inductive CatalogQuery where
  | classes
  | objectProperties
  | dataProperties
  | booleanDataProperties
  | stringDataProperties
  | intDataProperties
  | doubleDataProperties
  | subClasses
  | rootClasses
  | superClasses
  | isSubClassOf
  | subObjectProperties
  | superObjectProperties
  | subDataProperties
  | superDataProperties
  | objectPropertyDomain
  | dataPropertyDomain
  | objectPropertyRange
  | dataPropertyRange
  | allIndividuals
  | individualEdges
  | individualNode
  | objectPropertyMembers
  | dataPropertyMembers
deriving DecidableEq

namespace CatalogQuery

/-- All queries, in their order. -/
def all : List CatalogQuery :=
  [classes, objectProperties, dataProperties, booleanDataProperties, stringDataProperties,
    intDataProperties, doubleDataProperties, subClasses, rootClasses, superClasses, isSubClassOf,
    subObjectProperties, superObjectProperties, subDataProperties, superDataProperties,
    objectPropertyDomain, dataPropertyDomain, objectPropertyRange, dataPropertyRange,
    allIndividuals, individualEdges, individualNode, objectPropertyMembers, dataPropertyMembers]

/-- The place of a query in the order. -/
def index (query : CatalogQuery) : Nat :=
  all.findIdx (· = query)

instance : Ord CatalogQuery where
  compare a b := compare a.index b.index

/-- The name of a query. -/
def name : CatalogQuery → String
  | classes => "classes"
  | objectProperties => "object_properties"
  | dataProperties => "data_properties"
  | booleanDataProperties => "boolean_data_properties"
  | stringDataProperties => "string_data_properties"
  | intDataProperties => "int_data_properties"
  | doubleDataProperties => "double_data_properties"
  | subClasses => "sub_classes"
  | rootClasses => "root_classes"
  | superClasses => "super_classes"
  | isSubClassOf => "is_sub_class_of"
  | subObjectProperties => "sub_object_properties"
  | superObjectProperties => "super_object_properties"
  | subDataProperties => "sub_data_properties"
  | superDataProperties => "super_data_properties"
  | objectPropertyDomain => "object_property_domain"
  | dataPropertyDomain => "data_property_domain"
  | objectPropertyRange => "object_property_range"
  | dataPropertyRange => "data_property_range"
  | allIndividuals => "all_individuals"
  | individualEdges => "individual_edges"
  | individualNode => "individual_node"
  | objectPropertyMembers => "object_property_members"
  | dataPropertyMembers => "data_property_members"

/-- The template of a query.  Whether a top-level class has an edge to the top class depends on how
the ontology came into the graph, so the root classes are asked for in both ways. -/
def template : CatalogQuery → String
  | classes => "MATCH (cls:%CLASS%) RETURN cls.%URI% AS uri"
  | objectProperties => "MATCH (p:%OBJECT_PROPERTY%) RETURN p.%URI% AS uri"
  | dataProperties => "MATCH (p:%DATA_PROPERTY%) RETURN p.%URI% AS uri"
  | booleanDataProperties =>
      "MATCH (p:%DATA_PROPERTY%)-[:%RANGE%]->(ran:%RESOURCE%)\n"
        ++ "WHERE ran.%URI% IN [%XSD_BOOLEAN%]\n"
        ++ "RETURN p.%URI% AS uri"
  | stringDataProperties =>
      "MATCH (p:%DATA_PROPERTY%)-[:%RANGE%]->(ran:%RESOURCE%)\n"
        ++ "WHERE ran.%URI% IN [%XSD_STRING%]\n"
        ++ "RETURN p.%URI% AS uri"
  | intDataProperties =>
      "MATCH (p:%DATA_PROPERTY%)-[:%RANGE%]->(ran:%RESOURCE%)\n"
        ++ "WHERE ran.%URI% IN [%XSD_INT%, %XSD_INTEGER%]\n"
        ++ "RETURN p.%URI% AS uri"
  | doubleDataProperties =>
      "MATCH (p:%DATA_PROPERTY%)-[:%RANGE%]->(ran:%RESOURCE%)\n"
        ++ "WHERE ran.%URI% IN [%XSD_DOUBLE%, %XSD_FLOAT%]\n"
        ++ "RETURN p.%URI% AS uri"
  | subClasses =>
      "MATCH (sub:%CLASS%)-[:%SCO%]->(sup \x7b%URI%: $uri\x7d) RETURN sub.%URI% AS uri"
  | rootClasses =>
      "MATCH (sub:%CLASS%)-[:%SCO%]->(sup \x7b%URI%: $uri\x7d)\n"
        ++ "RETURN sub.%URI% AS uri\n"
        ++ "UNION\n"
        ++ "MATCH (sub:%CLASS%)\n"
        ++ "WHERE NOT (sub)-[:%SCO%]->()\n"
        ++ "RETURN sub.%URI% AS uri"
  | superClasses =>
      "MATCH (sub:%CLASS% \x7b%URI%: $uri\x7d)-[:%SCO%]->(sup:%CLASS%) RETURN sup.%URI% AS uri"
  | isSubClassOf =>
      "MATCH (sub:%CLASS% \x7b%URI%: $sub_uri\x7d)-[:%SCO%]->(sup:%CLASS% \x7b%URI%: $sup_uri\x7d)\n"
        ++ "RETURN sub.%URI% AS uri LIMIT 1"
  | subObjectProperties =>
      "MATCH (sub:%OBJECT_PROPERTY%)-[:%SPO%]->(sup:%OBJECT_PROPERTY% \x7b%URI%: $uri\x7d)\n"
        ++ "RETURN sub.%URI% AS uri"
  | superObjectProperties =>
      "MATCH (sub:%OBJECT_PROPERTY% \x7b%URI%: $uri\x7d)-[:%SPO%]->(sup:%OBJECT_PROPERTY%)\n"
        ++ "RETURN sup.%URI% AS uri"
  | subDataProperties =>
      "MATCH (sub:%DATA_PROPERTY%)-[:%SPO%]->(sup:%DATA_PROPERTY% \x7b%URI%: $uri\x7d)\n"
        ++ "RETURN sub.%URI% AS uri"
  | superDataProperties =>
      "MATCH (sub:%DATA_PROPERTY% \x7b%URI%: $uri\x7d)-[:%SPO%]->(sup:%DATA_PROPERTY%)\n"
        ++ "RETURN sup.%URI% AS uri"
  | objectPropertyDomain =>
      "MATCH (p:%OBJECT_PROPERTY% \x7b%URI%: $uri\x7d)-[:%DOMAIN%]->(dom:%CLASS%)\n"
        ++ "RETURN dom.%URI% AS uri"
  | dataPropertyDomain =>
      "MATCH (p:%DATA_PROPERTY% \x7b%URI%: $uri\x7d)-[:%DOMAIN%]->(dom:%CLASS%)\n"
        ++ "RETURN dom.%URI% AS uri"
  | objectPropertyRange =>
      "MATCH (p:%OBJECT_PROPERTY% \x7b%URI%: $uri\x7d)-[:%RANGE%]->(ran:%CLASS%)\n"
        ++ "RETURN ran.%URI% AS uri"
  | dataPropertyRange =>
      "MATCH (p:%DATA_PROPERTY% \x7b%URI%: $uri\x7d)-[:%RANGE%]->(ran:%RESOURCE%)\n"
        ++ "RETURN ran.%URI% AS uri"
  | allIndividuals =>
      "MATCH (ind:%RESOURCE%)\n"
        ++ "WHERE NOT ind:%CLASS% AND NOT ind:%OBJECT_PROPERTY% AND NOT ind:%DATA_PROPERTY%\n"
        ++ "RETURN ind AS individual"
  | individualEdges =>
      "MATCH (s:%RESOURCE% \x7b%URI%: $uri\x7d)-[r]->(o:%RESOURCE%)\n"
        ++ "RETURN type(r) AS property, o AS target"
  | individualNode => "MATCH (ind:%RESOURCE% \x7b%URI%: $uri\x7d) RETURN ind AS individual"
  | objectPropertyMembers =>
      "MATCH (ind:%RESOURCE%)-[:%KEY%]->(o:%RESOURCE%)\n"
        ++ "RETURN ind AS individual, o AS target"
  | dataPropertyMembers =>
      "MATCH (ind:%RESOURCE%)\n"
        ++ "WHERE ind.%KEY% IS NOT NULL\n"
        ++ "RETURN ind AS individual, ind.%KEY% AS value"

/-- The query with a name. -/
def ofName? (name : String) : Option CatalogQuery :=
  all.find? (·.name = name)

/-- The message about a name that no query has. -/
def unknownMessage (name : String) : String :=
  "unknown query id " ++ Text.quoted name

/-- The JSON value of a query. -/
def toJson (query : CatalogQuery) : Json :=
  .string query.name

/-- The query that a JSON value names. -/
def decode? (level : Nat) (v : Json) : Option CatalogQuery :=
  (v.name? level).bind ofName?

end CatalogQuery

/-! ## Filters by range -/

/-- The kinds of ranges by which data properties are listed; an integer range is `xsd:int` or
`xsd:integer`, a double range `xsd:double` or `xsd:float`. -/
inductive RangeFilter where
  | boolean
  | string
  | int
  | double
deriving DecidableEq

namespace RangeFilter

/-- The name of a filter in JSON. -/
def jsonName : RangeFilter → String
  | boolean => "boolean"
  | string => "string"
  | int => "int"
  | double => "double"

/-- The filter with a name. -/
def ofName? (name : String) : Option RangeFilter :=
  [boolean, string, int, double].find? (·.jsonName = name)

/-- The query that lists the data properties with a range of a kind. -/
def query : RangeFilter → CatalogQuery
  | boolean => .booleanDataProperties
  | string => .stringDataProperties
  | int => .intDataProperties
  | double => .doubleDataProperties

/-- The JSON value of a filter. -/
def toJson (filter : RangeFilter) : Json :=
  .string filter.jsonName

/-- The filter that a JSON value names. -/
def decode? (level : Nat) (v : Json) : Option RangeFilter :=
  (v.name? level).bind ofName?

end RangeFilter

end Ontograph
