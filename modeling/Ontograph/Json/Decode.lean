import Ontograph.Json.Reader
import Ontograph.Number.Reading

/-!
# Decoding JSON values

How the domain types are read off JSON values.  A *variant* is a string, its bare name, or an object
whose only member gives the name and the content.  A *record* is an object, in which unknown members
do not count and no known one may come twice, or the array of its fields in order.  A *kind* is an
object with the member `kind` among the fields of a record, or an array that begins with the kind.

Decoders take the number of levels that arrays and objects may still nest; what a decoder does not
look at may nest as it likes.
-/

namespace Ontograph.Json

/-- The levels that a text may nest. -/
def textLevels : Nat := 127

/-! ## Scalars -/

/-- A string. -/
def text? : Json → Option String
  | string s => some s
  | _ => none

/-- A truth value. -/
def bool? : Json → Option Bool
  | bool b => some b
  | _ => none

/-- An integer within bounds. -/
def int? (low high : Int) : Json → Option Int
  | number n => n.toInt?.bind fun i => if low ≤ i ∧ i ≤ high then some i else none
  | _ => none

/-- A natural number below a power of two. -/
def nat? (width : Nat) (v : Json) : Option Nat :=
  (v.int? 0 (1 <<< width - 1 : Nat)).map Int.toNat

/-- A signed 64-bit integer. -/
def int64? (v : Json) : Option Int64 :=
  (v.int? Int64.minValue.toInt Int64.maxValue.toInt).map Int64.ofInt

/-- A double; every number in range is one. -/
def binary64? : Json → Option Binary64
  | number n => n.toBinary64?
  | _ => none

/-! ## Variants and records -/

/-- The name of a variant, and its content if it has one. -/
def variant? : Json → Option (String × Option Json)
  | string name => some (name, none)
  | object [(name, content)] => some (name, some content)
  | _ => none

/-- The name of a variant without content, which may stand as an object with the content `null`. -/
def name? : Nat → Json → Option String
  | _, string name => some name
  | _ + 1, object [(name, null)] => some name
  | _, _ => none

/-- The value of a field among the members of an object: there must not be two. -/
def field? (members : List (String × Json)) (name : String) : Option (Option Json) :=
  match members.filter (·.1 = name) with
  | [] => some none
  | [(_, v)] => some (some v)
  | _ => none

/-- The fields of a record in the order of `names`; absent ones are `none`. -/
def record? (names : List String) : Json → Option (List (Option Json))
  | object members => names.mapM (field? members)
  | array items =>
      if items.length ≤ names.length then
        some (items.map some ++ List.replicate (names.length - items.length) none)
      else none
  | _ => none

/-- The kind of a value, and the value from which the fields of that kind are read. -/
def kind? : Json → Option (String × Json)
  | object members =>
      match field? members "kind" with
      | some (some (string kind)) => some (kind, object members)
      | _ => none
  | array (string kind :: rest) => some (kind, array rest)
  | _ => none

/-! ## Lists and maps -/

/-- The elements of an array. -/
def list? {α : Type} (item? : Nat → Json → Option α) : Nat → Json → Option (List α)
  | level + 1, array items => items.mapM (item? level)
  | _, _ => none

/-- An array of strings. -/
def texts? (level : Nat) (v : Json) : Option (List String) :=
  list? (fun _ => text?) level v

/-! ## Whole values -/

mutual

/-- Whether every string is readable and every number in range, at all depths. -/
def isSound : Json → Bool
  | unreadable => false
  | number n => n.toBinary64?.isSome
  | array items => isSoundItems items
  | object members => isSoundMembers members
  | _ => true

/-- Whether all elements are sound. -/
def isSoundItems : List Json → Bool
  | [] => true
  | v :: rest => v.isSound && isSoundItems rest

/-- Whether all members are sound. -/
def isSoundMembers : List (String × Json) → Bool
  | [] => true
  | (_, v) :: rest => v.isSound && isSoundMembers rest

end

/-- Whether a value can be taken as a whole at a level. -/
def fits (level : Nat) (v : Json) : Bool :=
  v.isSound && v.depth ≤ level

/-- Decodes a text. -/
def decodeText? {α : Type} (decode? : Nat → Json → Option α) (text : String) : Option α :=
  (parse? text).bind (decode? textLevels)

/-- Decodes a value that is given as such, however deep it is. -/
def decode? {α : Type} (decode? : Nat → Json → Option α) (v : Json) : Option α :=
  decode? v.depth v

end Ontograph.Json
