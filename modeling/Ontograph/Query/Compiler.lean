import Ontograph.Query.Lowering
import Ontograph.Query.Rendering

/-!
# Compiling expressions

A compiler turns class expressions into query texts for one schema, in one mode.
-/

namespace Ontograph

/-- What a compiler needs to know. -/
structure Compiler where
  schema : Schema
  mode : Mode
  procedure : String

/-- The compiler of a configuration. -/
def Config.compiler (config : Config) : Compiler :=
  ⟨config.schema, config.mode, config.inferenceProcedure⟩

namespace Compiler

/-- The pattern of an expression. -/
def pattern (compiler : Compiler) (e : ClassExpression) (target : Option String) :
    Except Failure Pattern :=
  e.toPattern compiler.mode target

/-- The query text of an expression. -/
def text (compiler : Compiler) (e : ClassExpression) (target : Option String) :
    Except Failure String := do
  let pattern ← compiler.pattern e target
  pattern.render compiler.schema compiler.procedure

end Compiler

end Ontograph
