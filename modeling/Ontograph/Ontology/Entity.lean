import Ontograph.Json.Decode
import Ontograph.Ontology.Vocabulary

/-!
# Named entities

An entity is an identifier together with what it names: a class, an object property, a data property,
an individual or a datatype.  Entities are ordered by kind first and by identifier then.
-/

namespace Ontograph

/-- What an identifier names. -/
inductive EntityKind where
  | cls
  | objectProperty
  | dataProperty
  | namedIndividual
  | datatype
deriving DecidableEq

namespace EntityKind

/-- All kinds, in their order. -/
def all : List EntityKind :=
  [cls, objectProperty, dataProperty, namedIndividual, datatype]

/-- The place of a kind in the order. -/
def index : EntityKind → Nat
  | cls => 0
  | objectProperty => 1
  | dataProperty => 2
  | namedIndividual => 3
  | datatype => 4

/-- The words for a kind. -/
def display : EntityKind → String
  | cls => "class"
  | objectProperty => "object property"
  | dataProperty => "data property"
  | namedIndividual => "named individual"
  | datatype => "datatype"

/-- The name of a kind in JSON. -/
def jsonName : EntityKind → String
  | cls => "class"
  | objectProperty => "object_property"
  | dataProperty => "data_property"
  | namedIndividual => "named_individual"
  | datatype => "datatype"

/-- The kind with a name. -/
def ofName? (name : String) : Option EntityKind :=
  all.find? (·.jsonName = name)

/-- The JSON value of a kind. -/
def toJson (kind : EntityKind) : Json :=
  .string kind.jsonName

/-- The kind that a JSON value names. -/
def decode? (level : Nat) (v : Json) : Option EntityKind :=
  (v.name? level).bind ofName?

end EntityKind

/-- An identifier and what it names. -/
structure Entity where
  kind : EntityKind
  uri : Uri
deriving DecidableEq

namespace Entity

instance : Ord Entity where
  compare a b := (compare a.kind.index b.kind.index).then (compare a.uri b.uri)

/-- The JSON value of an entity. -/
def toJson (entity : Entity) : Json :=
  .tagged entity.kind.jsonName (.string entity.uri)

/-- The entity that a JSON value describes. -/
def decode? : Nat → Json → Option Entity
  | 0, _ => none
  | _ + 1, v =>
      match v.variant? with
      | some (name, some (.string uri)) => (EntityKind.ofName? name).map (⟨·, uri⟩)
      | _ => none

end Entity

/-- An identifier between angle brackets. -/
def Uri.display (uri : Uri) : String :=
  "<" ++ uri ++ ">"

end Ontograph
