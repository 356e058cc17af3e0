import Ontograph.Ontology.ClassExpression.Display
import Ontograph.Query.CatalogQuery

/-!
# Failures

Why a question to the reasoner has no answer, and the message about it.
-/

namespace Ontograph

/-- Why an expression cannot be turned into a query or cannot stand where it does. -/
inductive Unsupported where
  /-- The top or the bottom class alone has no pattern. -/
  | bare (expression : ClassExpression)
  | disjunction (expression : ClassExpression)
  | negation (expression : ClassExpression)
  | universal (expression : ClassExpression)
  | cardinality (expression : ClassExpression)
  /-- A double without a text in queries. -/
  | nonFinite (x : Binary64)
  /-- An operation takes named classes only. -/
  | anonymous (operation : String) (expression : ClassExpression)

/-- What a store says when it cannot answer, and the text of the cause it knows of. -/
structure StoreFailure where
  message : String
  cause : Option String
deriving DecidableEq

/-- What is wrong with the value of a column. -/
inductive Mismatch where
  /-- The row has no such column. -/
  | missing
  /-- A node has no text under the identity key. -/
  | noIdentity (key : String)
  /-- The value is neither a text nor a node. -/
  | notUri (kind : String)
  /-- The value is no node. -/
  | notNode (kind : String)
deriving DecidableEq

/-- Why a question has no answer. -/
inductive Failure where
  | unsupported (why : Unsupported)
  | notFound (individual : Uri)
  | storeUnavailable (failure : StoreFailure)
  | unregistered (query : CatalogQuery)
  | invalidIdentifier (text : String)
  | unexpectedValue (column : String) (mismatch : Mismatch)

namespace Unsupported

/-- The words for a construct that has no query. -/
def message : Unsupported → String
  | bare e => "bare " ++ e.display ++ " has no pattern; resolve it before compiling"
  | disjunction e => "disjunction is not supported: " ++ e.display
  | negation e => "negation is not supported: " ++ e.display
  | universal e => "universal restriction is not supported: " ++ e.display
  | cardinality e => "cardinality restriction is not supported: " ++ e.display
  | nonFinite x => "non-finite float literal " ++ x.display
  | anonymous operation e => operation ++ " needs a named class, got " ++ e.display

end Unsupported

namespace StoreFailure

/-- The message about a store that cannot answer. -/
def text (failure : StoreFailure) : String :=
  "graph store unavailable: " ++ failure.message

end StoreFailure

namespace Mismatch

/-- What was expected. -/
def expected : Mismatch → String
  | missing => "a value"
  | noIdentity key => "node with a string `" ++ key ++ "` key"
  | notUri _ => "URI string or node"
  | notNode _ => "node"

/-- What was there. -/
def actual : Mismatch → String
  | missing => "missing column"
  | noIdentity _ => "node without one"
  | notUri kind => kind
  | notNode kind => kind

end Mismatch

namespace Failure

/-- The message about a failure. -/
def message : Failure → String
  | unsupported why => "unsupported construct: " ++ why.message
  | notFound individual => "no node found for individual <" ++ individual ++ ">"
  | storeUnavailable failure => failure.text
  | unregistered query => "query template `" ++ query.name ++ "` is not registered in the catalog"
  | invalidIdentifier text =>
      "identifier " ++ Text.quoted text ++ " cannot be used as a Cypher label or key"
  | unexpectedValue column mismatch =>
      "unexpected value in column `" ++ column ++ "`: expected " ++ mismatch.expected ++ ", got "
        ++ mismatch.actual

/-- Whether a caller can take a failure as "does not apply here" and go on. -/
def isRecoverable : Failure → Bool
  | unsupported _ => true
  | notFound _ => true
  | _ => false

end Failure

end Ontograph
