/-!
# Arguments

How the arguments of the command line are read.  A command is `compile`, `catalog` or `config`; before
and after its name `-v` and `--verbose` may stand any number of times.  Everything else about an
argument list is in three tables: which options of a command take a value, which do not, and whether
it has a positional argument.

An option's value is the next argument, unless that begins an option itself, or what follows `=`.  No
option but the verbose one may be given twice, `--` ends the options, and the name of a file must not
be empty.  A list that breaks a rule is refused as a whole.  A list is read from the left up to the
first request for help or for the version: what stands before it must keep the rules, and what
follows it is not looked at.
-/

namespace Ontograph

/-- The settings that all commands share: a configuration file, and whether inference is switched
on. -/
structure Settings where
  configFile : Option String
  inference : Bool
deriving DecidableEq

/-- What is to be done. -/
inductive Command where
  /-- Compiles the expression of a file, or of standard input, to query text or to a pattern. -/
  | compile (input : Option String) (settings : Settings) (target : Option String)
      (asPattern : Bool)
  /-- Writes the catalog, the text of one query, or the names of all. -/
  | catalog (query : Option String) (settings : Settings) (namesOnly : Bool)
  /-- Writes the configuration that holds. -/
  | config (settings : Settings)
deriving DecidableEq

/-- What an argument list asks for. -/
inductive Invocation where
  | version
  | help
  | command (command : Command)
deriving DecidableEq

/-! ## Single arguments -/

/-- What arguments say one by one. -/
inductive Argument where
  | value (option : String) (value : String)
  | flag (option : String)
  | positional (value : String)
  | help
deriving DecidableEq

/-- The options of a command. -/
structure Options where
  valued : List String
  flags : List String

namespace Argument

/-- The name and the attached value of an argument that begins with two hyphens. -/
def long? (arg : String) : Option (String × Option String) :=
  match arg.toList with
  | '-' :: '-' :: rest =>
      match rest.span (· ≠ '=') with
      | (name, []) => some (String.ofList name, none)
      | (name, _ :: attached) => some (String.ofList name, some (String.ofList attached))
  | _ => none

/-- The letters of an argument that begins with one hyphen and does not consist of it. -/
def letters? (arg : String) : Option (List Char) :=
  match arg.toList with
  | '-' :: c :: rest => some (c :: rest)
  | _ => none

/-- Whether an argument begins an option. -/
def isOption (arg : String) : Bool :=
  (letters? arg).isSome

/-- What the arguments of a command say, up to a request for help. -/
def ofList? (options : Options) : List String → Option (List Argument)
  | [] => some []
  | arg :: rest =>
      if arg = "--" then some (rest.map positional)
      else match long? arg with
        | some (name, attached) =>
            if name = "help" then if attached.isNone then some [help] else none
            else if name = "verbose" then if attached.isNone then ofList? options rest else none
            else if name ∈ options.flags then
              if attached.isNone then (ofList? options rest).map (flag name :: ·) else none
            else if name ∈ options.valued then
              match attached, rest with
              | some v, rest => (ofList? options rest).map (value name v :: ·)
              | none, v :: rest =>
                  if isOption v then none else (ofList? options rest).map (value name v :: ·)
              | none, [] => none
            else none
        | none =>
            match letters? arg with
            | some letters =>
                match letters.dropWhile (· = 'v') with
                | [] => ofList? options rest
                | 'h' :: _ => some [help]
                | _ => none
            | none => (ofList? options rest).map (positional arg :: ·)

/-- The values of an option. -/
def valuesOf (option : String) (arguments : List Argument) : List String :=
  arguments.filterMap fun
    | value o v => if o = option then some v else none
    | _ => none

/-- How often a flag is given. -/
def countOf (option : String) (arguments : List Argument) : Nat :=
  arguments.count (flag option)

/-- The positional arguments. -/
def positionals (arguments : List Argument) : List String :=
  arguments.filterMap fun
    | positional v => some v
    | _ => none

end Argument

/-! ## Commands -/

/-- The only element of a list that may have one. -/
def atMostOne? {α : Type} : List α → Option (Option α)
  | [] => some none
  | [a] => some (some a)
  | _ => none

/-- Whether a flag is given; it must not be given twice. -/
def given? (option : String) (arguments : List Argument) : Option Bool :=
  match Argument.countOf option arguments with
  | 0 => some false
  | 1 => some true
  | _ => none

/-- The name of a file; it must not be empty. -/
def fileName? : Option String → Option (Option String)
  | some "" => none
  | name => some name

namespace Settings

/-- The settings among the arguments of a command. -/
def ofArguments? (arguments : List Argument) : Option Settings := do
  let file ← atMostOne? (Argument.valuesOf "config" arguments)
  let file ← fileName? file
  let inference ← given? "inference" arguments
  some ⟨file, inference⟩

end Settings

namespace Command

/-- The command with a name and what its arguments say; a request for help among them says nothing
about the command. -/
def ofArguments? (name : String) (arguments : List Argument) : Option Command := do
  let settings ← Settings.ofArguments? arguments
  let first ← atMostOne? (Argument.positionals arguments)
  match name with
  | "compile" =>
      let input ← fileName? first
      let target ← atMostOne? (Argument.valuesOf "target" arguments)
      let asPattern ← given? "ir" arguments
      some (compile input settings target asPattern)
  | "catalog" =>
      let namesOnly ← given? "list" arguments
      some (catalog first settings namesOnly)
  | "config" => if first.isNone then some (config settings) else none
  | _ => none

/-- The options of the command with a name. -/
def options? : String → Option Options
  | "compile" => some ⟨["config", "target"], ["inference", "ir"]⟩
  | "catalog" => some ⟨["config"], ["inference", "list"]⟩
  | "config" => some ⟨["config"], ["inference"]⟩
  | _ => none

end Command

namespace Invocation

/-- Whether help can be asked for on a topic: a command, or help itself. -/
def hasHelp (topic : String) : Bool :=
  topic = "help" || (Command.options? topic).isSome

/-- What an argument list asks for, if it breaks no rule. -/
def ofArguments? : List String → Option Invocation
  | [] => none
  | arg :: rest =>
      if arg = "--version" then some version
      else if arg = "--help" then some help
      else if arg = "--verbose" then ofArguments? rest
      else match Argument.letters? arg with
        | some letters =>
            match letters.dropWhile (· = 'v') with
            | [] => ofArguments? rest
            | 'V' :: _ => some version
            | 'h' :: _ => some help
            | _ => none
        | none =>
            if arg = "help" then
              match rest with
              | [] => some help
              | [topic] => if hasHelp topic then some help else none
              | _ => none
            else do
              let options ← Command.options? arg
              let arguments ← Argument.ofList? options rest
              let asked ← Command.ofArguments? arg arguments
              some (if arguments.contains .help then help else command asked)

end Invocation

end Ontograph
