import Ontograph.Graph.Store

/-!
# Scripted stores

A store that answers from a list of rules: the first rule that fits a statement gives the reply, and a
statement that none fits has no rows.  During an outage no session can be opened.
-/

namespace Ontograph

/-- Which statements a rule is for, and the reply to them. -/
structure Rule where
  /-- The whole text of the statement. -/
  text : Option String
  /-- A part of the text of the statement. -/
  part : Option String
  /-- Parameters and their values. -/
  parameters : List (String × Value)
  reply : Except StoreFailure (List Row)

/-- The rules of a store, and the message of its outage if there is one. -/
structure Script where
  rules : List Rule
  outage : Option String

namespace Rule

/-- Whether a list of characters stands somewhere in another. -/
def occursIn (part : List Char) : List Char → Bool
  | [] => part.isEmpty
  | c :: rest => part.isPrefixOf (c :: rest) || occursIn part rest

/-- Whether a rule is for a statement. -/
def fits (rule : Rule) (statement : Statement) : Bool :=
  rule.text.all (· = statement.text)
    && rule.part.all (fun part => occursIn part.toList statement.text.toList)
    && rule.parameters.all fun (name, value) =>
      (Assoc.find? name statement.parameters).any value.agrees

end Rule

namespace Script

/-- No rules and no outage. -/
def empty : Script := ⟨[], none⟩

/-- The reply to a statement. -/
def reply (script : Script) (statement : Statement) : Except StoreFailure (List Row) :=
  match script.rules.find? (·.fits statement) with
  | some rule => rule.reply
  | none => .ok []

/-- The store of a script, which it never changes. -/
def store : GraphStore Script where
  openSession script :=
    match script.outage with
    | some message => (.error ⟨message, none⟩, script)
    | none => (.ok (), script)
  run statement script := (script.reply statement, script)
  closeSession script := script

end Script

end Ontograph
