import Ontograph.Command.Arguments
import Ontograph.Ontology.ClassExpression.Json
import Ontograph.Json.Printer
import Ontograph.Query.Catalog
import Ontograph.Query.Compiler
import Ontograph.Text.Blank

/-!
# Commands

What the commands write, given the files that they read.  A command succeeds with a text for standard
output and one for standard error, or fails with a message.
-/

namespace Ontograph

/-- Why a command fails. -/
inductive CommandError where
  | unreadableConfig (path : String)
  | invalidConfig (path : String)
  | unreadableInput (path : String)
  | noExpression
  | invalidExpression
  | unknownQuery (name : String)
  | failure (why : Failure)

namespace CommandError

/-- The message about an error. -/
def message : CommandError → String
  | unreadableConfig path => "failed to read config " ++ path
  | invalidConfig path => "invalid config " ++ path
  | unreadableInput path => "failed to read " ++ path
  | noExpression => "expected a JSON class expression"
  | invalidExpression => "invalid class expression"
  | unknownQuery name => CatalogQuery.unknownMessage name
  | failure why => why.message

end CommandError

/-- What is left of a run: the exit code and what was written. -/
structure Outcome where
  exitCode : UInt32
  output : String
  errors : String

/-- What commands read: the content of the files that can be read, and of standard input. -/
structure Inputs where
  file : String → Option String
  stdin : String

/-- Whether a path stands for standard input: it has the single component `-`. -/
def isStdinPath (path : String) : Bool :=
  match path.splitOn "/" with
  | first :: rest => first = "-" && rest.all fun c => c = "" || c = "."
  | [] => false

namespace Settings

/-- The configuration that holds.  Inference can be switched on but not off. -/
def resolve (settings : Settings) (inputs : Inputs) : Except CommandError Config := do
  let config ← match settings.configFile with
    | none => pure ({} : Config)
    | some path =>
        match inputs.file path with
        | none => throw (.unreadableConfig path)
        | some text =>
            match Json.decodeText? Config.decode? text with
            | none => throw (.invalidConfig path)
            | some config => pure config
  return { config with inference := config.inference || settings.inference }

end Settings

namespace Command

/-- The settings of a command. -/
def settings : Command → Settings
  | compile _ settings _ _ => settings
  | catalog _ settings _ => settings
  | config settings => settings

/-- The file with the expression of a command, unless it is read from standard input. -/
def inputFile? : Command → Option String
  | compile (some path) _ _ _ => if isStdinPath path then none else some path
  | _ => none

/-- Whether a command reads standard input. -/
def readsStdin : Command → Bool
  | compile none _ _ _ => true
  | compile (some path) _ _ _ => isStdinPath path
  | _ => false

/-- The files that a command reads. -/
def files (command : Command) : List String :=
  command.settings.configFile.toList ++ command.inputFile?.toList

/-- The expression of a text. -/
def expressionOf (text : String) : Except CommandError ClassExpression :=
  if Text.isBlank text then .error .noExpression
  else match Json.decodeText? ClassExpression.decode? text with
    | none => .error .invalidExpression
    | some e => .ok e

/-- What a command writes to standard output and standard error. -/
def execute (inputs : Inputs) (command : Command) : Except CommandError (String × String) := do
  let config ← command.settings.resolve inputs
  match command with
  | compile _ _ target asPattern =>
      let text ← match command.inputFile? with
        | none => pure inputs.stdin
        | some path =>
            match inputs.file path with
            | none => throw (.unreadableInput path)
            | some text => pure text
      let e ← expressionOf text
      let result :=
        if asPattern then
          (config.compiler.pattern e target).map fun pattern => pattern.toJson.indented
        else config.compiler.text e target
      let output ← result.mapError .failure
      return (output ++ "\n", "Compiled " ++ e.display ++ " (" ++ config.mode.display ++ " mode)\n")
  | catalog query _ namesOnly =>
      let catalog := Catalog.ofSchema config.schema
      if namesOnly then
        return (String.join (catalog.texts.map fun e => e.1.name ++ "\n"), "")
      match query with
      | some name =>
          match CatalogQuery.ofName? name with
          | none => throw (.unknownQuery name)
          | some query =>
              let text ← (catalog.get query).mapError .failure
              return (text ++ "\n", "")
      | none =>
          let entries := catalog.texts.map fun e => "// " ++ e.1.name ++ "\n" ++ e.2 ++ "\n\n"
          return (String.join entries, "Catalog: " ++ catalog.size.repr ++ " queries\n")
  | .config _ => return (config.toJson.indented ++ "\n", "")

end Command

namespace Invocation

/-- The name and the version of the program. -/
def versionText : String :=
  "cypherdl 0.1.0\n"

/-- How the program is called. -/
def usage : String :=
  "Usage: cypherdl [-v]... <COMMAND>\n\n"
    ++ "Commands:\n"
    ++ "  compile [INPUT]  Compile a class expression (JSON) to a query\n"
    ++ "                   [--config FILE] [--inference] [--target NAME] [--ir]\n"
    ++ "  catalog [ID]     Print the query catalog, or one query\n"
    ++ "                   [--config FILE] [--inference] [--list]\n"
    ++ "  config           Print the configuration as JSON\n"
    ++ "                   [--config FILE] [--inference]\n"

/-- The outcome of an argument list. -/
def run (inputs : Inputs) : Option Invocation → Outcome
  | none => ⟨2, "", usage⟩
  | some version => ⟨0, versionText, ""⟩
  | some help => ⟨0, usage, ""⟩
  | some (command c) =>
      match c.execute inputs with
      | .ok (output, errors) => ⟨0, output, errors⟩
      | .error error => ⟨1, "", "Error: " ++ error.message ++ "\n"⟩

end Invocation

end Ontograph
