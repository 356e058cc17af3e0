import Ontograph.Failure

/-!
# Names and literals in queries

How texts are written into a Cypher query.  A plain identifier needs no quotes as a name of the
schema; any other name stands between backticks, with the backticks in it doubled.  Identifiers of
ontology entities always stand between backticks and must not contain one.  Text literals stand
between single quotes and escape with a backslash.
-/

namespace Ontograph.Query

/-- Whether a character may begin a plain identifier. -/
def isIdentifierStart (c : Char) : Bool :=
  c.isAlpha || c = '_'

/-- Whether a character may go on in a plain identifier. -/
def isIdentifierRest (c : Char) : Bool :=
  c.isAlphanum || c = '_'

/-- Whether a text is a plain identifier: ASCII letters, digits and underscores, no digit first. -/
def isPlainIdentifier (s : String) : Bool :=
  match s.toList with
  | [] => false
  | c :: rest => isIdentifierStart c && rest.all isIdentifierRest

/-- Whether a text can be the name of a variable. -/
def isVariable (s : String) : Bool :=
  isPlainIdentifier s

/-- A character between backticks. -/
def backtickChar (c : Char) : List Char :=
  if c = '\x60' then ['\x60', '\x60'] else [c]

/-- A name of the schema. -/
def schemaName (name : String) : String :=
  if isPlainIdentifier name then name
  else String.ofList ('\x60' :: (name.toList.flatMap backtickChar ++ ['\x60']))

/-- The identifier of an entity as a label, an edge type or a key. -/
def uriName (uri : Uri) : Except Failure String :=
  if uri.toList = [] ∨ '\x60' ∈ uri.toList then .error (.invalidIdentifier uri)
  else .ok (String.ofList ('\x60' :: (uri.toList ++ ['\x60'])))

/-- A character of a text literal. -/
def literalChar (c : Char) : List Char :=
  match c with
  | '\\' => ['\\', '\\']
  | '\x27' => ['\\', '\x27']
  | '\n' => ['\\', 'n']
  | '\r' => ['\\', 'r']
  | '\t' => ['\\', 't']
  | c => [c]

/-- A text literal. -/
def stringLiteral (s : String) : String :=
  String.ofList ('\x27' :: (s.toList.flatMap literalChar ++ ['\x27']))

/-- A literal as a query compares with it. -/
def literal : Literal → Except Failure String
  | .integer n => .ok (Literal.intText n)
  | .float x => if x.isFinite then .ok x.display else .error (.unsupported (.nonFinite x))
  | .string s => .ok (stringLiteral s)
  | .boolean b => .ok (Literal.boolText b)

end Ontograph.Query
