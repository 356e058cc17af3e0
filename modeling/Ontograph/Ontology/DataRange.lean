import Ontograph.Ascending
import Ontograph.Json.Decode
import Ontograph.Ontology.Vocabulary

/-!
# Data ranges

What values a data property may have: those of one datatype, or those that belong to every datatype
of a set.
-/

namespace Ontograph

/-- A set of data values. -/
inductive DataRange where
  | datatype (uri : Uri)
  | intersection (datatypes : List Uri)
deriving DecidableEq

namespace DataRange

/-- The values that belong to all of some datatypes: all literals if there is none, and a single
datatype itself. -/
def intersectionOf (datatypes : List Uri) : DataRange :=
  match Ascending.ofList datatypes with
  | [] => datatype Vocabulary.rdfsLiteral
  | [uri] => datatype uri
  | set => intersection set

/-- Whether a range is the datatype of all literals. -/
def isTop (range : DataRange) : Bool :=
  range = datatype Vocabulary.rdfsLiteral

/-- The JSON value of a range. -/
def toJson : DataRange → Json
  | datatype uri => .tagged "datatype" (.string uri)
  | intersection datatypes => .tagged "intersection" (.strings datatypes)

/-- The range that a JSON value describes. -/
def decode? : Nat → Json → Option DataRange
  | 0, _ => none
  | level + 1, v =>
      match v.variant? with
      | some ("datatype", some uri) => uri.text?.map datatype
      | some ("intersection", some datatypes) =>
          (datatypes.texts? level).map fun l => intersection (Ascending.ofList l)
      | _ => none

end DataRange

end Ontograph
