import Ontograph.Json.Decode
import Ontograph.Number.Shortest
import Ontograph.Ontology.Vocabulary
import Ontograph.Text.Quoted

/-!
# Literals

A literal is a data value: an integer, a double, a text or a truth value.  Literals are ordered by
kind and, within a kind, by value; doubles by their total order, so that literals can be elements of
sets.

Main statements: the order is lawful (instances `Std.TransOrd`, `Std.LawfulEqOrd`).
-/

namespace Ontograph

/-! ## The texts of doubles -/

namespace Binary64

/-- How queries and messages write doubles: positionally below `10 ^ 16` and from `10 ^ -4` on. -/
def plainLayout : Layout := ⟨-4, 15, false⟩

/-- How JSON texts write doubles: positionally below `10 ^ 16` and from `10 ^ -5` on, and with a sign
before every exponent. -/
def jsonLayout : Layout := ⟨-5, 15, true⟩

/-- The name of a pattern that is no number. -/
def specialName (x : Binary64) : String :=
  if x.isNaN then "NaN" else if x.negative then "-inf" else "inf"

/-- The text of a double in queries and messages. -/
def display (x : Binary64) : String :=
  if x.isFinite then
    let numeral := plainLayout.numeral x.negative (Shortest.scientific .upward x)
    String.ofList (numeral.chars plainLayout.plus)
  else x.specialName

/-- The JSON value of a double; what is no number has none and becomes `null`. -/
def toJson (x : Binary64) : Json :=
  if x.isFinite then .number (jsonLayout.numeral x.negative (Shortest.scientific .toEven x))
  else .null

end Binary64

/-! ## Literals -/

/-- A data value. -/
inductive Literal where
  | integer (n : Int64)
  | float (x : Binary64)
  | string (s : String)
  | boolean (b : Bool)
deriving DecidableEq

/-- The kinds of literals, in their order. -/
inductive LiteralKind where
  | integer
  | float
  | string
  | boolean
deriving DecidableEq

namespace LiteralKind

/-- The place of a kind in the order. -/
def index : LiteralKind → Nat
  | integer => 0
  | float => 1
  | string => 2
  | boolean => 3

/-- The word for a kind. -/
def name : LiteralKind → String
  | integer => "Integer"
  | float => "Float"
  | string => "String"
  | boolean => "Boolean"

end LiteralKind

namespace Literal

/-- The kind of a literal. -/
def kind : Literal → LiteralKind
  | integer _ => .integer
  | float _ => .float
  | string _ => .string
  | boolean _ => .boolean

/-- Whether a literal is a text. -/
def isString : Literal → Bool
  | string _ => true
  | _ => false

/-- The datatype of a literal. -/
def datatype : Literal → Uri
  | integer _ => Vocabulary.xsdInteger
  | float _ => Vocabulary.xsdDouble
  | string _ => Vocabulary.xsdString
  | boolean _ => Vocabulary.xsdBoolean

/-- The text of a truth value. -/
def boolText (b : Bool) : String :=
  if b then "true" else "false"

/-- The text of an integer. -/
def intText (n : Int64) : String :=
  String.ofList ((Numeral.ofInt n.toInt).chars false)

/-- The text of a literal in messages. -/
def display : Literal → String
  | integer n => intText n
  | float x => x.display
  | string s => Text.quoted s
  | boolean b => boolText b

/-! ## Order -/

/-- The order of literals. -/
def cmp : Literal → Literal → Ordering
  | integer a, integer b => compare a b
  | float a, float b => compare a b
  | string a, string b => compare a b
  | boolean a, boolean b => compare a b
  | a, b => compare a.kind.index b.kind.index

instance : Ord Literal := ⟨cmp⟩

theorem compare_def (a b : Literal) : compare a b = cmp a b := rfl

instance : Std.LawfulEqOrd Literal where
  compare_self := by
    intro a
    cases a <;> simp [compare_def, cmp]
  eq_of_compare := by
    intro a b h
    cases a <;> cases b <;> simp only [compare_def, cmp, kind, LiteralKind.index] at h <;>
      first
        | exact congrArg _ (Std.LawfulEqOrd.eq_of_compare h)
        | exact absurd h (by decide)

instance : Std.TransOrd Literal where
  eq_swap := by
    intro a b
    cases a <;> cases b <;> simp only [compare_def, cmp] <;> exact Std.OrientedOrd.eq_swap
  isLE_trans := by
    intro a b c hab hbc
    cases a <;> cases b <;> cases c <;>
      simp only [compare_def, cmp, kind, LiteralKind.index] at hab hbc ⊢ <;>
      first
        | exact Std.TransOrd.isLE_trans hab hbc
        | exact absurd hab (by decide)
        | exact absurd hbc (by decide)
        | decide

/-! ## JSON -/

/-- The JSON value of a literal. -/
def toJson : Literal → Json
  | integer n => .tagged "integer" (.int n.toInt)
  | float x => .tagged "float" x.toJson
  | string s => .tagged "string" (.string s)
  | boolean b => .tagged "boolean" (.bool b)

/-- The literal that a JSON value describes. -/
def decode? : Nat → Json → Option Literal
  | 0, _ => none
  | _ + 1, v =>
      match v.variant? with
      | some ("integer", some n) => n.int64?.map integer
      | some ("float", some x) => x.binary64?.map float
      | some ("string", some s) => s.text?.map string
      | some ("boolean", some b) => b.bool?.map boolean
      | _ => none

end Literal

end Ontograph
