import Ontograph.Number.Decimal

/-!
# JSON values

A JSON value as it is read from a text and written to one.  Numbers keep the decimal form in which
they are written, objects the order and the repetitions of their members.

A string of a JSON text may hold half of a surrogate pair, which no text can hold.  A value with such
a string, or an object with such a key, is `unreadable`: it may stand where nobody looks at it.
-/

namespace Ontograph

/-- A JSON value. -/
inductive Json where
  | null
  | bool (b : Bool)
  | number (n : Numeral)
  | string (s : String)
  | array (items : List Json)
  | object (members : List (String × Json))
  | unreadable
deriving Inhabited

namespace Json

/-- The number of an integer. -/
def int (n : Int) : Json :=
  number (Numeral.ofInt n)

/-- The object with one member. -/
def tagged (key : String) (value : Json) : Json :=
  object [(key, value)]

/-- The array of the strings of a list. -/
def strings (l : List String) : Json :=
  array (l.map string)

mutual

/-- How many arrays and objects are nested. -/
def depth : Json → Nat
  | array items => depthItems items + 1
  | object members => depthMembers members + 1
  | _ => 0

/-- The depth of the deepest element. -/
def depthItems : List Json → Nat
  | [] => 0
  | v :: rest => max v.depth (depthItems rest)

/-- The depth of the deepest member. -/
def depthMembers : List (String × Json) → Nat
  | [] => 0
  | (_, v) :: rest => max v.depth (depthMembers rest)

end

end Json

end Ontograph
