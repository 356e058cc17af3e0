/-!
# Vocabulary

The identifiers that ontologies share: the top and the bottom class, the top datatype, the label
property and the datatypes of literals.
-/

namespace Ontograph

/-- The identifier of an ontology entity. -/
abbrev Uri := String

namespace Vocabulary

/-- The class of everything. -/
def owlThing : Uri := "http://www.w3.org/2002/07/owl#Thing"

/-- The class of nothing. -/
def owlNothing : Uri := "http://www.w3.org/2002/07/owl#Nothing"

/-- The property that labels a resource for readers. -/
def rdfsLabel : Uri := "http://www.w3.org/2000/01/rdf-schema#label"

/-- The datatype of all literals. -/
def rdfsLiteral : Uri := "http://www.w3.org/2000/01/rdf-schema#Literal"

/-- The datatype of truth values. -/
def xsdBoolean : Uri := "http://www.w3.org/2001/XMLSchema#boolean"

/-- The datatype of texts. -/
def xsdString : Uri := "http://www.w3.org/2001/XMLSchema#string"

/-- The datatype of 32-bit integers. -/
def xsdInt : Uri := "http://www.w3.org/2001/XMLSchema#int"

/-- The datatype of integers. -/
def xsdInteger : Uri := "http://www.w3.org/2001/XMLSchema#integer"

/-- The datatype of double-precision numbers. -/
def xsdDouble : Uri := "http://www.w3.org/2001/XMLSchema#double"

/-- The datatype of single-precision numbers. -/
def xsdFloat : Uri := "http://www.w3.org/2001/XMLSchema#float"

end Vocabulary

namespace Uri

/-- What follows the last `#` or `/`: the whole identifier if it has neither. -/
def localName (uri : Uri) : String :=
  String.ofList (uri.toList.reverse.takeWhile fun c => c ≠ '#' ∧ c ≠ '/').reverse

end Uri

end Ontograph
