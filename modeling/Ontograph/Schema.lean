import Ontograph.Json.Decode
import Ontograph.Ontology.Vocabulary

/-!
# Graph schemas

How an ontology is laid out in a property graph: the labels of its nodes, the types of its edges, and
the keys under which a node keeps its identifier and its label for readers.  Each of the ten names has
a default, and a JSON description of a schema may leave out any of them.
-/

namespace Ontograph

/-- The names of a graph layout. -/
structure Schema where
  resourceLabel : String := "Resource"
  classLabel : String := "Class"
  objectPropertyLabel : String := "Relationship"
  dataPropertyLabel : String := "Property"
  subclassOfType : String := "SCO"
  subpropertyOfType : String := "SPO"
  domainType : String := "DOMAIN"
  rangeType : String := "RANGE"
  identityKey : String := "uri"
  labelKey : String := Vocabulary.rdfsLabel
deriving DecidableEq

namespace Schema

/-- The names of the fields, in order. -/
def fieldNames : List String :=
  ["resource_label", "class_label", "object_property_label", "data_property_label",
    "subclass_of_rel", "subproperty_of_rel", "domain_rel", "range_rel", "identity_key", "label_key"]

/-- The values of the fields, in order. -/
def values (schema : Schema) : List String :=
  [schema.resourceLabel, schema.classLabel, schema.objectPropertyLabel, schema.dataPropertyLabel,
    schema.subclassOfType, schema.subpropertyOfType, schema.domainType, schema.rangeType,
    schema.identityKey, schema.labelKey]

/-- The schema with the given values, if there is one for each field. -/
def ofValues? : List String → Option Schema
  | [resource, cls, object, data, subclass, subproperty, domain, range, identity, label] =>
      some ⟨resource, cls, object, data, subclass, subproperty, domain, range, identity, label⟩
  | _ => none

/-- The schema with a new value for a field, if there is such a field. -/
def set? (schema : Schema) (field : String) (value : String) : Option Schema :=
  if field ∈ fieldNames then
    ofValues? ((fieldNames.zip schema.values).map fun (name, old) =>
      if name = field then value else old)
  else none

/-- Whether a key of a node has a meaning of its own and is no data property. -/
def isReservedKey (schema : Schema) (key : String) : Bool :=
  key = schema.identityKey || key = schema.labelKey

/-- The JSON value of a schema. -/
def toJson (schema : Schema) : Json :=
  .object (fieldNames.zip (schema.values.map .string))

/-- The schema that a JSON value describes; an absent field has its default. -/
def decode? : Nat → Json → Option Schema
  | 0, _ => none
  | _ + 1, v => do
      let fields ← v.record? fieldNames
      let values ← (fields.zip ({} : Schema).values).mapM fun (field, default) =>
        match field with
        | none => some default
        | some v => v.text?
      ofValues? values

end Schema

end Ontograph
