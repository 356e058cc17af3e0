import Ontograph.Json.Basic
import Ontograph.Json.Token

/-!
# Reading JSON

A value is built from tokens by a machine with a stack of unfinished arrays and objects, one token at
a time, so that nesting costs nothing but memory.
-/

namespace Ontograph.Json

/-- An array or object that waits for a value: what it has so far, last part first. -/
inductive Frame where
  | items (done : List Json)
  | members (done : List (Option String × Json)) (key : Option String)

/-- What may come next. -/
inductive Phase where
  /-- A value. -/
  | value
  /-- The first element of an array, or its end. -/
  | firstItem
  /-- A comma, or the end of an array. -/
  | afterItem (done : List Json)
  /-- The first key of an object, or its end. -/
  | firstKey
  /-- The next key of an object. -/
  | nextKey (done : List (Option String × Json))
  /-- The colon after a key. -/
  | colon (done : List (Option String × Json)) (key : Option String)
  /-- A comma, or the end of an object. -/
  | afterMember (done : List (Option String × Json))
  /-- Nothing. -/
  | finished (value : Json)

/-- The machine: the containers around the place, innermost first, and what may come next. -/
structure Machine where
  stack : List Frame
  phase : Phase

/-- The object of its members; a key that is no text makes it unreadable. -/
def ofMembers (members : List (Option String × Json)) : Json :=
  match members.mapM fun (key, value) => key.map (·, value) with
  | some members => object members
  | none => unreadable

namespace Machine

/-- Before the first token. -/
def start : Machine := ⟨[], .value⟩

/-- Hands a finished value to the container around it. -/
def deliver (value : Json) : List Frame → Machine
  | [] => ⟨[], .finished value⟩
  | .items done :: stack => ⟨stack, .afterItem (value :: done)⟩
  | .members done key :: stack => ⟨stack, .afterMember ((key, value) :: done)⟩

/-- What a token does where a value may begin. -/
def begin? (stack : List Frame) : Token → Option Machine
  | .null => some (deliver .null stack)
  | .bool b => some (deliver (.bool b) stack)
  | .number n => some (deliver (.number n) stack)
  | .string (some s) => some (deliver (.string s) stack)
  | .string none => some (deliver .unreadable stack)
  | .openBracket => some ⟨stack, .firstItem⟩
  | .openBrace => some ⟨stack, .firstKey⟩
  | _ => none

/-- What a token does. -/
def step (token : Token) (machine : Machine) : Option Machine :=
  match machine.phase, token with
  | .value, token => begin? machine.stack token
  | .firstItem, .closeBracket => some (deliver (.array []) machine.stack)
  | .firstItem, token => begin? (.items [] :: machine.stack) token
  | .afterItem done, .comma => some ⟨.items done :: machine.stack, .value⟩
  | .afterItem done, .closeBracket => some (deliver (.array done.reverse) machine.stack)
  | .firstKey, .closeBrace => some (deliver (ofMembers []) machine.stack)
  | .firstKey, .string key => some ⟨machine.stack, .colon [] key⟩
  | .nextKey done, .string key => some ⟨machine.stack, .colon done key⟩
  | .colon done key, .colon => some ⟨.members done key :: machine.stack, .value⟩
  | .afterMember done, .comma => some ⟨machine.stack, .nextKey done⟩
  | .afterMember done, .closeBrace => some (deliver (ofMembers done.reverse) machine.stack)
  | _, _ => none

/-- What a list of tokens does. -/
def run : List Token → Machine → Option Machine
  | [], machine => some machine
  | token :: rest, machine =>
      match machine.step token with
      | none => none
      | some next => run rest next

/-- A list of tokens does what its parts do one after the other. -/
theorem run_append (first second : List Token) (machine : Machine) :
    run (first ++ second) machine = (run first machine).bind (run second) := by
  induction first generalizing machine with
  | nil => rfl
  | cons token rest ih =>
      simp only [List.cons_append, run]
      cases machine.step token with
      | none => rfl
      | some next => exact ih next

end Machine

/-- The value of a list of tokens. -/
def ofTokens? (tokens : List Token) : Option Json :=
  match Machine.run tokens Machine.start with
  | some ⟨_, .finished value⟩ => some value
  | _ => none

/-- The value of a JSON text. -/
def parse? (text : String) : Option Json :=
  (Token.ofText? text).bind ofTokens?

end Ontograph.Json
