import Ontograph.Schema

/-!
# Configurations

What a reasoner needs to know besides its store: the schema of the graph, whether membership in a
class follows subclasses, and the procedure that then lists the members.
-/

namespace Ontograph

/-- How membership in a class is matched: by the class's own label, or through a procedure that
follows the subclass hierarchy. -/
inductive Mode where
  | direct
  | inference
deriving DecidableEq

namespace Mode

/-- The word for a mode. -/
def display : Mode → String
  | direct => "Direct"
  | inference => "Inference"

/-- The name of a mode in JSON. -/
def jsonName : Mode → String
  | direct => "direct"
  | inference => "inference"

/-- The mode with a name. -/
def ofName? (name : String) : Option Mode :=
  [direct, inference].find? (·.jsonName = name)

/-- The JSON value of a mode. -/
def toJson (mode : Mode) : Json :=
  .string mode.jsonName

/-- The mode that a JSON value names. -/
def decode? (level : Nat) (v : Json) : Option Mode :=
  (v.name? level).bind ofName?

end Mode

/-- A configuration. -/
structure Config where
  schema : Schema := {}
  inference : Bool := false
  inferenceProcedure : String := "semantics.inference.nodesLabelled"
deriving DecidableEq

namespace Config

/-- The mode that a configuration asks for. -/
def mode (config : Config) : Mode :=
  if config.inference then .inference else .direct

/-- The JSON value of a configuration. -/
def toJson (config : Config) : Json :=
  .object [("schema", config.schema.toJson), ("inference", .bool config.inference),
    ("inference_procedure", .string config.inferenceProcedure)]

/-- The configuration that a JSON value describes; an absent field has its default. -/
def decode? : Nat → Json → Option Config
  | 0, _ => none
  | level + 1, v =>
      match v.record? ["schema", "inference", "inference_procedure"] with
      | some [schema, inference, procedure] => do
          let schema ← match schema with
            | none => some {}
            | some v => Schema.decode? level v
          let inference ← match inference with
            | none => some false
            | some v => v.bool?
          let procedure ← match procedure with
            | none => some ({} : Config).inferenceProcedure
            | some v => v.text?
          some ⟨schema, inference, procedure⟩
      | _ => none

end Config

end Ontograph
